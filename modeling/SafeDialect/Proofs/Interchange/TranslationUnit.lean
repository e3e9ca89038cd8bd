/-
Units are read back from the text that they are written as.

A unit whose numbers fit their words, and whose form is not nested deeper than a reader follows,
comes back from its compact text with the same entries in the same slots. It need not be consistent.
The index of types that is rebuilt from what comes back has, for each layer that is held, the last
slot that holds it.
-/
import SafeDialect.Files.Loading
import SafeDialect.Proofs.Interchange.Expr
import SafeDialect.Proofs.Program.TypeIndex

namespace SafeDialect

-- ============================================================ attributes and scopes

namespace AttributeSet

/-- Inserting attributes one by one puts each of them in. -/
private theorem contains_foldl_insert (attributes : List Attribute) (s : AttributeSet)
    (a : Attribute) :
    (attributes.foldl insert s).contains a = (attributes.contains a || s.contains a) := by
  induction attributes generalizing s with
  | nil => simp
  | cons first rest ih =>
    rw [List.foldl_cons, ih]
    by_cases same : a = first <;> simp [insert, same]

/-- Putting the members of a set together again gives the set. -/
theorem ofList_toList (s : AttributeSet) : ofList s.toList = s := by
  have sameMembers (a : Attribute) : (ofList s.toList).contains a = s.contains a := by
    have listed : a ∈ Attribute.all := by cases a <;> decide
    rw [ofList, contains_foldl_insert]
    simp [toList, empty, listed]
  cases s
  exact congrArg AttributeSet.mk (funext sameMembers)

/-- A set of attributes is read back from its list, whatever order that has. -/
theorem encodes (s : AttributeSet) : Encodes decoder s.toJson s := by
  have members : Encodes (.list attributeDecoder) s.toJson s.toList :=
    .list fun a _ => .enumeration (by cases a <;> rfl)
  have read : Encodes decoder s.toJson (ofList s.toList) := .map ofList members
  rwa [ofList_toList] at read

end AttributeSet

namespace ScopeKind

/-- The record or function of a scope has a slot of 32 bits. -/
def Representable : ScopeKind → Prop
  | record id => id.index < UInt32.size
  | function id => id.index < UInt32.size
  | translationUnit | nameSpace | linkageBlock | enum => True

instance : DecidablePred Representable
  | record _ | function _ => inferInstanceAs (Decidable (_ < _))
  | translationUnit | nameSpace | linkageBlock | enum => inferInstanceAs (Decidable True)

/-- What a scope is the scope of is read back. -/
theorem encodes {kind : ScopeKind} (sized : kind.Representable) :
    Encodes decoder kind.toJson kind := by
  cases kind with
  | record id => exact .tagged (fun _ => rfl) (.map _ (.slot sized))
  | function id => exact .tagged (fun _ => rfl) (.map _ (.slot sized))
  | _ => exact .name fun _ => rfl

end ScopeKind

namespace Scope

/-- The scope around a scope has a slot of 32 bits, and its kind can be written. -/
def Representable (s : Scope) : Prop :=
  s.kind.Representable ∧ ∀ id ∈ s.parent, id.index < UInt32.size

instance : DecidablePred Representable := fun _ => inferInstanceAs (Decidable (_ ∧ _))

/-- A scope is read back. -/
theorem encodes {s : Scope} (sized : s.Representable) : Encodes decoder s.toJson s := by
  have name : Encodes (.optional .text) (.ofOption .ofString s.name) s.name :=
    .optional (fun text _ => .text text) (fun _ => nofun)
  have kind := ScopeKind.encodes sized.1
  have parent : Encodes (.optional ScopeId.decoder) (.ofOption ScopeId.toJson s.parent) s.parent :=
    .slot? (fun _ => rfl) sized.2
  have attributes := s.attributes.encodes
  refine .struct (by decide) rfl ⟨name.whole, kind.whole, parent.whole, attributes.whole⟩ ?_
  exact .bind (.nullable rfl name) <| .bind (.required rfl kind) <| .bind (.nullable rfl parent) <|
    .bind (.withDefault rfl attributes) <| .pure

end Scope

-- ============================================================ records

/-- Tags have names of their own. -/
theorem RecordTag.encodes (t : RecordTag) : Encodes RecordTag.decoder t.toJson t :=
  .oneOf (by cases t <;> rfl)

namespace TemplateArg

/-- A type has a slot of 32 bits, and a number fits 64 bits with its sign. -/
def Representable : TemplateArg → Prop
  | type t => t.Representable
  | integral value => FitsInt64 value
  | other _ => True

instance : DecidablePred Representable
  | type t => inferInstanceAs (Decidable t.Representable)
  | integral value => inferInstanceAs (Decidable (FitsInt64 value))
  | other _ => inferInstanceAs (Decidable True)

/-- An argument is read back. -/
theorem encodes {arg : TemplateArg} (sized : arg.Representable) :
    Encodes decoder arg.toJson arg := by
  cases arg with
  | type t => exact .tagged (fun _ => rfl) (.map _ (QualifiedType.encodes sized))
  | integral value => exact .tagged (fun _ => rfl) (.map _ (.int64 sized))
  | other text => exact .tagged (fun _ => rfl) (.map _ (.text text))

end TemplateArg

namespace Field

/-- A field can be written if its type and place can. -/
def Representable (f : Field) : Prop := f.type.Representable ∧ f.location.Representable

instance : DecidablePred Representable := fun _ => inferInstanceAs (Decidable (_ ∧ _))

/-- A field is read back. -/
theorem encodes {f : Field} (sized : f.Representable) : Encodes decoder f.toJson f := by
  have name := Encodes.text f.name
  have type := QualifiedType.encodes sized.1
  have location := Location.encodes sized.2
  have hasInitializer := Encodes.bool f.hasInitializer
  refine .struct (by decide) rfl
    ⟨name.whole, type.whole, location.whole, hasInitializer.whole⟩ ?_
  exact .bind (.required rfl name) <| .bind (.required rfl type) <|
    .bind (.required rfl location) <| .bind (.withDefault rfl hasInitializer) <| .pure

end Field

namespace Base

/-- A base can be written if its type and place can. -/
def Representable (b : Base) : Prop := b.type.Representable ∧ b.location.Representable

instance : DecidablePred Representable := fun _ => inferInstanceAs (Decidable (_ ∧ _))

/-- A base is read back. -/
theorem encodes {b : Base} (sized : b.Representable) : Encodes decoder b.toJson b := by
  have type := QualifiedType.encodes sized.1
  have location := Location.encodes sized.2
  refine .struct (by decide) rfl ⟨type.whole, location.whole⟩ ?_
  exact .bind (.required rfl type) <| .bind (.required rfl location) <| .pure

end Base

namespace RecordDefinition

/-- The methods of a definition have slots of 32 bits. -/
def Representable (d : RecordDefinition) : Prop :=
  (∀ f ∈ d.fields, f.Representable) ∧ (∀ b ∈ d.bases, b.Representable)
    ∧ ∀ id ∈ d.methods, id.index < UInt32.size

instance : DecidablePred Representable := fun _ => inferInstanceAs (Decidable (_ ∧ _))

/-- A definition is read back, each of its lists in order. -/
theorem encodes {d : RecordDefinition} (sized : d.Representable) :
    Encodes decoder d.toJson d := by
  have fields : Encodes (.list Field.decoder) (.ofList Field.toJson d.fields) d.fields :=
    .list fun f mem => Field.encodes (sized.1 f mem)
  have bases : Encodes (.list Base.decoder) (.ofList Base.toJson d.bases) d.bases :=
    .list fun b mem => Base.encodes (sized.2.1 b mem)
  have methods : Encodes (.list FunctionId.decoder) (.ofList FunctionId.toJson d.methods)
      d.methods :=
    .list fun id mem => .slot (sized.2.2 id mem)
  refine .struct (by decide) rfl ⟨fields.whole, bases.whole, methods.whole⟩ ?_
  exact .bind (.withDefault rfl fields) <| .bind (.withDefault rfl bases) <|
    .bind (.withDefault rfl methods) <| .pure

end RecordDefinition

namespace RecordDecl

/-- All slots that a record refers to have 32 bits, and so on for its parts. -/
def Representable (r : RecordDecl) : Prop :=
  r.scope.index < UInt32.size ∧ r.location.Representable
    ∧ (∀ d ∈ r.definition, d.Representable) ∧ (∀ arg ∈ r.templateArgs, arg.Representable)
    ∧ ∀ id ∈ r.pattern, id.index < UInt32.size

instance : DecidablePred Representable := fun _ => inferInstanceAs (Decidable (_ ∧ _))

/-- A record is read back, defined or not. -/
theorem encodes {r : RecordDecl} (sized : r.Representable) : Encodes decoder r.toJson r := by
  obtain ⟨scopeSized, locationSized, definitionSized, argsSized, patternSized⟩ := sized
  have name := Encodes.text r.name
  have scope : Encodes ScopeId.decoder r.scope.toJson r.scope := .slot scopeSized
  have location := Location.encodes locationSized
  have tag := r.tag.encodes
  have definition : Encodes (.optional RecordDefinition.decoder)
      (.ofOption RecordDefinition.toJson r.definition) r.definition :=
    .optional (fun d isDefinition => RecordDefinition.encodes (definitionSized d isDefinition))
      (fun _ => nofun)
  have templateArgs : Encodes (.list TemplateArg.decoder)
      (.ofList TemplateArg.toJson r.templateArgs) r.templateArgs :=
    .list fun arg mem => TemplateArg.encodes (argsSized arg mem)
  have pattern : Encodes (.optional RecordId.decoder) (.ofOption RecordId.toJson r.pattern)
      r.pattern :=
    .slot? (fun _ => rfl) patternSized
  have isTemplate := Encodes.bool r.isTemplate
  have isImplicit := Encodes.bool r.isImplicitInstantiation
  have isLambda := Encodes.bool r.isLambda
  have attributes := r.attributes.encodes
  refine .struct (by decide) rfl ⟨name.whole, scope.whole, location.whole, tag.whole,
    definition.whole, templateArgs.whole, pattern.whole, isTemplate.whole, isImplicit.whole,
    isLambda.whole, attributes.whole⟩ ?_
  exact .bind (.required rfl name) <| .bind (.required rfl scope) <|
    .bind (.required rfl location) <| .bind (.required rfl tag) <|
    .bind (.withDefault rfl definition) <| .bind (.withDefault rfl templateArgs) <|
    .bind (.withDefault rfl pattern) <| .bind (.withDefault rfl isTemplate) <|
    .bind (.withDefault rfl isImplicit) <| .bind (.withDefault rfl isLambda) <|
    .bind (.withDefault rfl attributes) <| .pure

end RecordDecl

-- ============================================================ functions

/-- The kind of a function is read back, a constructor with its flag. -/
theorem FunctionKind.encodes (kind : FunctionKind) :
    Encodes FunctionKind.decoder kind.toJson kind := by
  cases kind with
  | constructor copyOrMove =>
    have copyOrMove := Encodes.bool copyOrMove
    refine .tagged (fun _ => rfl) (.struct (by decide) rfl copyOrMove.whole ?_)
    exact .bind (.required rfl copyOrMove) <| .pure
  | _ => exact .name fun _ => rfl

/-- An operator is read back by its name or by its spelling. -/
theorem OverloadedOperator.encodes (op : OverloadedOperator) :
    Encodes OverloadedOperator.decoder op.toJson op := by
  cases op with
  | other spelling => exact .tagged (fun _ => rfl) (.map _ (.text spelling))
  | _ => exact .name fun _ => rfl

namespace FunctionDecl

/-- All slots that a function refers to have 32 bits, and its place can be written. -/
def Representable (f : FunctionDecl) : Prop :=
  f.scope.index < UInt32.size ∧ f.location.Representable
    ∧ (∀ id ∈ f.parent, id.index < UInt32.size) ∧ (∀ id ∈ f.params, id.index < UInt32.size)
    ∧ f.ret.Representable ∧ (∀ id ∈ f.body, id.index < UInt32.size)
    ∧ ∀ id ∈ f.pattern, id.index < UInt32.size

instance : DecidablePred Representable := fun _ => inferInstanceAs (Decidable (_ ∧ _))

/-- A function is read back. -/
theorem encodes {f : FunctionDecl} (sized : f.Representable) : Encodes decoder f.toJson f := by
  obtain ⟨scopeSized, locationSized, parentSized, paramsSized, retSized, bodySized,
    patternSized⟩ := sized
  have name := Encodes.text f.name
  have scope : Encodes ScopeId.decoder f.scope.toJson f.scope := .slot scopeSized
  have location := Location.encodes locationSized
  have kind := f.kind.encodes
  have operator : Encodes (.optional OverloadedOperator.decoder)
      (.ofOption OverloadedOperator.toJson f.operator) f.operator :=
    .optional (fun op _ => op.encodes) (fun op => by cases op <;> nofun)
  have parent : Encodes (.optional RecordId.decoder) (.ofOption RecordId.toJson f.parent)
      f.parent :=
    .slot? (fun _ => rfl) parentSized
  have isConst := Encodes.bool f.isConst
  have isStatic := Encodes.bool f.isStatic
  have isVirtual := Encodes.bool f.isVirtual
  have isDefaulted := Encodes.bool f.isDefaulted
  have isDeleted := Encodes.bool f.isDeleted
  have params : Encodes (.list VariableId.decoder) (.ofList VariableId.toJson f.params)
      f.params :=
    .list fun id mem => .slot (paramsSized id mem)
  have ret := QualifiedType.encodes retSized
  have body : Encodes (.optional StmtId.decoder) (.ofOption StmtId.toJson f.body) f.body :=
    .slot? (fun _ => rfl) bodySized
  have pattern : Encodes (.optional FunctionId.decoder) (.ofOption FunctionId.toJson f.pattern)
      f.pattern :=
    .slot? (fun _ => rfl) patternSized
  have attributes := f.attributes.encodes
  refine .struct (by decide) rfl ⟨name.whole, scope.whole, location.whole, kind.whole,
    operator.whole, parent.whole, isConst.whole, isStatic.whole, isVirtual.whole,
    isDefaulted.whole, isDeleted.whole, params.whole, ret.whole, body.whole, pattern.whole,
    attributes.whole⟩ ?_
  exact .bind (.required rfl name) <| .bind (.required rfl scope) <|
    .bind (.required rfl location) <| .bind (.required rfl kind) <|
    .bind (.withDefault rfl operator) <| .bind (.withDefault rfl parent) <|
    .bind (.withDefault rfl isConst) <| .bind (.withDefault rfl isStatic) <|
    .bind (.withDefault rfl isVirtual) <| .bind (.withDefault rfl isDefaulted) <|
    .bind (.withDefault rfl isDeleted) <| .bind (.withDefault rfl params) <|
    .bind (.required rfl ret) <| .bind (.withDefault rfl body) <|
    .bind (.withDefault rfl pattern) <| .bind (.withDefault rfl attributes) <| .pure

end FunctionDecl

-- ============================================================ variables

/-- Kinds of variables have names of their own. -/
theorem VariableKind.encodes (kind : VariableKind) :
    Encodes VariableKind.decoder kind.toJson kind :=
  .oneOf (by cases kind <;> rfl)

namespace VariableDecl

/-- All slots that a variable refers to have 32 bits, and so on for its initializer. -/
def Representable (v : VariableDecl) : Prop :=
  v.type.Representable ∧ v.location.Representable
    ∧ (∀ id ∈ v.declStmt, id.index < UInt32.size) ∧ (∀ e ∈ v.init, e.Representable)
    ∧ ∀ id ∈ v.function, id.index < UInt32.size

instance : DecidablePred Representable := fun _ => inferInstanceAs (Decidable (_ ∧ _))

/-- A variable is read back, with its initializer. -/
theorem encodes {v : VariableDecl} (sized : v.Representable) : Encodes decoder v.toJson v := by
  obtain ⟨typeSized, locationSized, stmtSized, initSized, functionSized⟩ := sized
  have name := Encodes.text v.name
  have type := QualifiedType.encodes typeSized
  have location := Location.encodes locationSized
  have kind := v.kind.encodes
  have attributes := v.attributes.encodes
  have declStmt : Encodes (.optional StmtId.decoder) (.ofOption StmtId.toJson v.declStmt)
      v.declStmt :=
    .slot? (fun _ => rfl) stmtSized
  have init := Expr.optional_encodes initSized
  have function : Encodes (.optional FunctionId.decoder)
      (.ofOption FunctionId.toJson v.function) v.function :=
    .slot? (fun _ => rfl) functionSized
  refine .struct (by decide) rfl ⟨name.whole, type.whole, location.whole, kind.whole,
    attributes.whole, declStmt.whole, init.whole, function.whole⟩ ?_
  exact .bind (.required rfl name) <| .bind (.required rfl type) <|
    .bind (.required rfl location) <| .bind (.required rfl kind) <|
    .bind (.withDefault rfl attributes) <| .bind (.withDefault rfl declStmt) <|
    .bind (.withDefault rfl init) <| .bind (.withDefault rfl function) <| .pure

end VariableDecl

-- ============================================================ units

namespace TranslationUnit

/-- Every number in the unit fits the word that the format has for it. -/
def Representable (u : TranslationUnit) : Prop :=
  (∀ shape ∈ u.types.shapes, shape.Representable) ∧ (∀ s ∈ u.scopes, s.Representable)
    ∧ (∀ r ∈ u.records, r.Representable) ∧ (∀ f ∈ u.functions, f.Representable)
    ∧ (∀ v ∈ u.vars, v.Representable) ∧ ∀ s ∈ u.statements, s.Representable

instance : DecidablePred Representable := fun _ => inferInstanceAs (Decidable (_ ∧ _))

/-- A table is read back entry by entry. -/
private theorem table_encodes {α : Type} {d : Decoder α} {encode : α → Json} {entries : Array α}
    (each : ∀ x ∈ entries, Encodes d (encode x) x) :
    Encodes (tableDecoder d) (.ofList encode entries.toList) entries := by
  have listed : Encodes (.list d) (.ofList encode entries.toList) entries.toList :=
    .list fun x mem => each x (Array.mem_toList_iff.mp mem)
  exact .map List.toArray listed

/-- A unit is read back table by table. -/
theorem encodes {u : TranslationUnit} (sized : u.Representable) : Encodes decoder u.toJson u := by
  obtain ⟨typesSized, scopesSized, recordsSized, functionsSized, varsSized, stmtsSized⟩ := sized
  have files := table_encodes fun f (_ : f ∈ u.files) => f.encodes
  have types := TypeTable.encodes typesSized
  have scopes := table_encodes fun s mem => Scope.encodes (scopesSized s mem)
  have records := table_encodes fun r mem => RecordDecl.encodes (recordsSized r mem)
  have functions := table_encodes fun f mem => FunctionDecl.encodes (functionsSized f mem)
  have vars := table_encodes fun v mem => VariableDecl.encodes (varsSized v mem)
  have statements := table_encodes fun s mem => Stmt.encodes (stmtsSized s mem)
  refine .struct (by decide) rfl ⟨files.whole, types.whole, scopes.whole, records.whole,
    functions.whole, vars.whole, statements.whole⟩ ?_
  exact .bind (.withDefault rfl files) <| .bind (.withDefault rfl types) <|
    .bind (.required rfl scopes) <| .bind (.withDefault rfl records) <|
    .bind (.withDefault rfl functions) <| .bind (.withDefault rfl vars) <|
    .bind (.withDefault rfl statements) <| .pure

/-- A unit that is written and read comes back. -/
theorem ofText?_compact {u : TranslationUnit} (sized : u.Representable)
    (deep : u.toJson.nesting ≤ Decoder.maxDepth) : ofText? u.toJson.compact = some u := by
  have read := encodes sized
  show (Json.parse? u.toJson.compact).bind decoder.run = some u
  rw [Json.parse?_compact read.whole]
  exact read.reads Decoder.maxDepth deep

/-- A unit that is written and read comes back. The index that loading its layers rebuilds has the
last slot of each layer that the unit holds, and so has a search of the slots. -/
theorem written_then_read {u : TranslationUnit} (sized : u.Representable)
    (deep : u.toJson.nesting ≤ Decoder.maxDepth) :
    ofText? u.toJson.compact = some u
      ∧ ∀ (slot : Nat) (shape : TypeShape), u.types.shapes[slot]? = some shape → ∃ last,
          (IndexedTable.load u.types.shapes.toList).index[shape]? = some last
            ∧ u.types.find? shape = some last ∧ u.types.shapes[last.index]? = some shape
            ∧ ∀ other : Nat, u.types.shapes[other]? = some shape → other ≤ last.index := by
  refine ⟨ofText?_compact sized deep, fun slot shape holds => ?_⟩
  have bounded {other : Nat} (holds : u.types.shapes[other]? = some shape) :
      other < u.types.size :=
    (Array.getElem?_eq_some_iff.mp holds).1
  obtain ⟨last, found⟩ := exists_lastBelow (bounded holds) holds
  obtain ⟨_, here, greatest⟩ := lastBelow_eq_some found
  -- the index was filled slot by slot, and is in step with a search
  have indexed : (IndexedTable.load u.types.shapes.toList).index[shape]? = some last := by
    rw [IndexedTable.inStep_load]
    exact found
  exact ⟨last, indexed, found, here, fun other holds => greatest other (bounded holds) holds⟩

/-- A unit with numbers at their limits, texts that need escapes, one layer in two slots and
references to slots that it does not have. -/
def outlandish : TranslationUnit where
  files := #[⟨"C:\\src\\\"π\"\n\x01.cpp", true⟩]
  types := ⟨#[.builtin .int, .pointer ⟨⟨0⟩, true⟩,
    .array ⟨⟨UInt32.size - 1⟩, false⟩ (some (UInt64.size - 1)), .pointer ⟨⟨0⟩, true⟩,
    .function ⟨⟨0⟩, false⟩ [⟨⟨9⟩, true⟩]]⟩
  scopes := #[⟨some "", .record ⟨7⟩, some ⟨3⟩, .ofList [.awaitable, .nakedStruct]⟩]
  records := #[{
    RecordDecl.declared "Box" ⟨0⟩ ⟨some ⟨0⟩, ⟨UInt64.size - 1, 0⟩⟩ with
    definition := some ⟨[⟨"item", ⟨⟨1⟩, false⟩, .unknown, true⟩], [⟨⟨⟨5⟩, false⟩, .unknown⟩], [⟨2⟩]⟩
    templateArgs := [.type ⟨⟨1⟩, true⟩, .integral Int64.minValue.toInt, .other "\t"] }]
  functions := #[{
    FunctionDecl.declared "+" ⟨0⟩ .unknown (.constructor true) ⟨⟨0⟩, false⟩ with
    operator := some (.other "+"), params := [⟨0⟩, ⟨1⟩], body := some ⟨0⟩ }]
  vars := #[{
    VariableDecl.declared "x" ⟨⟨0⟩, false⟩ .unknown .localVar with
    init := some (.mk .unknown ⟨⟨1⟩, false⟩ (.conditional
      (.mk .unknown ⟨⟨0⟩, false⟩ (.memberCall none
        (.mk .unknown ⟨⟨0⟩, false⟩ (.lambda ⟨some ⟨1⟩, [⟨.byReference ⟨0⟩, .unknown⟩]⟩)) true
        [.mk .unknown ⟨⟨0⟩, false⟩ (.integer Int64.maxValue.toInt)]))
      (.mk .unknown ⟨⟨0⟩, false⟩ (.declRef (.fieldRef ⟨0⟩ (UInt64.size - 1))))
      (.mk .unknown ⟨⟨0⟩, false⟩ (.construct (some ⟨4⟩) [])))) }]
  statements := #[⟨some ⟨0⟩, .unknown, .forLoop none (some (.mk .unknown ⟨⟨0⟩, false⟩ .nullPointer))
    none ⟨8⟩⟩, ⟨none, .unknown, .giveBack none⟩]

/-- The outlandish unit is read back as it is, and of the two slots that hold one layer the last is
in the index. -/
theorem outlandish_written_then_read :
    outlandish.Representable ∧ outlandish.toJson.nesting ≤ Decoder.maxDepth
      ∧ ofText? outlandish.toJson.compact = some outlandish
      ∧ ∀ (slot : Nat) (shape : TypeShape), outlandish.types.shapes[slot]? = some shape → ∃ last,
          (IndexedTable.load outlandish.types.shapes.toList).index[shape]? = some last
            ∧ outlandish.types.find? shape = some last
            ∧ outlandish.types.shapes[last.index]? = some shape
            ∧ ∀ other : Nat, outlandish.types.shapes[other]? = some shape → other ≤ last.index := by
  have sized : outlandish.Representable := by decide +kernel
  have deep : outlandish.toJson.nesting ≤ Decoder.maxDepth := by decide +kernel
  exact ⟨sized, deep, written_then_read sized deep⟩

end TranslationUnit

end SafeDialect
