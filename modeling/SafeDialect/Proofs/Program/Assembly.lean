/-
Every step of an assembly extends a consistent unit.

`Builds` is the judgement: started on a consistent unit the step answers, the unit after it is
consistent again and has grown, and the answer has a property in it. Steps one after the other
build, since what lies inside a table stays there; each operation needs its own ids to lie inside,
and gives back ids that do.
-/
import SafeDialect.Program.Assembly
import SafeDialect.Proofs.Program.Growth

namespace SafeDialect

open TranslationUnit

/-- What is added to the unit is the only change of an assembly. -/
theorem runs_add {α : Type} {π : Fault → Prop} {a : Assembly}
    {change : TranslationUnit → Result (TranslationUnit × α)} {post : α → Assembly → Prop}
    (h : Ends π (change a.unit) fun end_ => post end_.2 { a with unit := end_.1 }) :
    Runs π (Assemble.add change) a post := by
  have look : Runs π Assemble.unit a fun u b => u = a.unit ∧ b = a := ⟨rfl, rfl⟩
  refine .bind look fun u b same => ?_
  obtain ⟨rfl, rfl⟩ := same
  exact .lift_bind h fun _ _ known => known

/-- Started on a consistent unit, a step answers and extends the unit, and the answer has a property
there. -/
def Builds {α : Type} (a : Assembly) (step : Assemble α) (post : TranslationUnit → α → Prop) :
    Prop :=
  a.unit.Consistent →
    Runs (fun _ => False) step a fun x b => a.unit.Extended b.unit ∧ post b.unit x

namespace Builds

variable {α β : Type} {a : Assembly} {step : Assemble α} {post post' : TranslationUnit → α → Prop}

/-- What is at hand needs no step. -/
theorem pure {x : α} (h : post a.unit x) : Builds a (Pure.pure x) post :=
  fun c => .pure ⟨c.extended, h⟩

/-- Steps one after the other build. What is known of ids before the second one is known of a unit
that has grown in between. -/
theorem bind {next : α → Assemble β} {last : TranslationUnit → β → Prop}
    (first : Builds a step post)
    (then_ : ∀ x b, a.unit.Grown b.unit → post b.unit x → Builds b (next x) last) :
    Builds a (step >>= next) last := by
  intro c
  refine .bind (first c) fun x b known => ?_
  obtain ⟨extended, isPost⟩ := known
  refine .mono (then_ x b extended.grown isPost extended.consistent) fun y d known => ?_
  exact ⟨extended.trans known.1, known.2⟩

/-- A property may be weakened, with the knowledge that the unit has grown. -/
theorem mono (h : Builds a step post)
    (weaker : ∀ v x, a.unit.Grown v → post v x → post' v x) : Builds a step post' :=
  fun c => .mono (h c) fun x b known => ⟨known.1, weaker b.unit x known.1.grown known.2⟩

/-- That the unit is consistent may be used on the way. -/
theorem of_consistent (h : a.unit.Consistent → Builds a step post) : Builds a step post :=
  fun c => h c c

/-- What is done to the answer alone. -/
theorem map {f : α → β} {last : TranslationUnit → β → Prop}
    (h : Builds a step fun v x => last v (f x)) : Builds a (f <$> step) last := by
  rw [map_eq_pure_bind]
  exact .bind h fun x b _ known => .pure known

/-- A question to the unit leaves it as it is. -/
theorem ask {question : TranslationUnit → Result α}
    (answers : a.unit.Consistent → Ends (fun _ => False) (question a.unit) (post a.unit)) :
    Builds a (Assemble.ask question) post := by
  intro c
  refine Ends.mono (Runs.lift (s := a) (answers c)) fun end_ known => ?_
  obtain ⟨isPost, same⟩ := known
  rw [same]
  exact ⟨c.extended, isPost⟩

/-- Looking at the unit does not change it. -/
theorem unit : Builds a Assemble.unit fun v u => v = u :=
  fun c => ⟨c.extended, rfl⟩

/-- An addition builds if the change of the unit does. -/
theorem add {change : TranslationUnit → Result (TranslationUnit × α)}
    (extends_ : a.unit.Consistent →
      Ends (fun _ => False) (change a.unit) fun end_ =>
        a.unit.Extended end_.1 ∧ post end_.1 end_.2) :
    Builds a (Assemble.add change) post :=
  fun c => runs_add (extends_ c)

/-- The list of what each element gives. -/
theorem mapM {f : α → Assemble β} {l : List α} {post : TranslationUnit → β → Prop}
    (stays : ∀ v w x, v.Grown w → post v x → post w x)
    (each : ∀ x ∈ l, ∀ b, a.unit.Grown b.unit → Builds b (f x) post) :
    Builds a (l.mapM f) fun v ys => ∀ y ∈ ys, post v y := by
  induction l generalizing a with
  | nil =>
    rw [List.mapM_nil]
    exact .pure (by simp)
  | cons head tail ih =>
    rw [List.mapM_cons]
    refine .bind (each head List.mem_cons_self a (.refl _)) fun y b grown ofHead => ?_
    refine .bind (ih fun x mem d grown' =>
      each x (List.mem_cons_of_mem _ mem) d (grown.trans grown')) fun ys d grown' ofTail => ?_
    refine .pure fun z mem => ?_
    rcases List.mem_cons.mp mem with rfl | mem
    · exact stays _ _ _ grown' ofHead
    · exact ofTail z mem

/-- What is handed from element to element. -/
theorem foldlM {f : β → α → Assemble β} {l : List α} {init : β}
    {post : TranslationUnit → β → Prop} (start : post a.unit init)
    (each : ∀ x ∈ l, ∀ y b, a.unit.Grown b.unit → post b.unit y → Builds b (f y x) post) :
    Builds a (l.foldlM f init) post := by
  induction l generalizing a init with
  | nil => exact .pure start
  | cons head tail ih =>
    rw [List.foldlM_cons]
    refine .bind (each head List.mem_cons_self init a (.refl _) start) fun y b grown known => ?_
    refine ih known fun x mem y d grown' => ?_
    exact each x (List.mem_cons_of_mem _ mem) y d (grown.trans grown')

end Builds

namespace Assemble

variable {a : Assembly}

-- ============================================================ locations and types

/-- Places count up an offset, and the unit stays. -/
theorem userLocation_builds : Builds a userLocation fun _ _ => True :=
  fun c => ⟨c.extended, trivial⟩

theorem systemLocation_builds : Builds a systemLocation fun _ _ => True :=
  fun c => ⟨c.extended, trivial⟩

/-- A layer that is made of what is there gets a slot. -/
private theorem typeOf_builds {shape : TypeShape} (fits : shape.Fits a.unit a.unit.types.size) :
    Builds a (typeOf shape) fun v t => v.Holds .types t.id.index := by
  refine .add fun c => ?_
  refine .bind (c.intern_ends fits) fun end_ known => ?_
  exact .pure known

/-- The builtin types are made of nothing. -/
theorem builtin_builds {kind : Builtin} :
    Builds a (builtin kind) fun v t => v.Holds .types t.id.index :=
  typeOf_builds ⟨nofun, nofun⟩

/-- A pointer to a type of the unit. -/
theorem pointerTo_builds {t : QualifiedType} (inside : a.unit.Holds .types t.id.index) :
    Builds a (pointerTo t) fun v t => v.Holds .types t.id.index := by
  refine typeOf_builds ⟨fun part mem => ?_, nofun⟩
  cases List.mem_singleton.mp mem
  exact ⟨inside, inside⟩

/-- A reference to a type of the unit. -/
theorem referenceTo_builds {t : QualifiedType} (inside : a.unit.Holds .types t.id.index) :
    Builds a (referenceTo t) fun v t => v.Holds .types t.id.index := by
  refine typeOf_builds ⟨fun part mem => ?_, nofun⟩
  cases List.mem_singleton.mp mem
  exact ⟨inside, inside⟩

/-- The type of a record of the unit. -/
theorem recordType_builds {id : RecordId} (inside : a.unit.Holds .records id.index) :
    Builds a (recordType id) fun v t => v.Holds .types t.id.index := by
  refine typeOf_builds ⟨nofun, fun id' same => ?_⟩
  cases same
  exact inside

-- ============================================================ scopes

/-- What is found is there. -/
private theorem findScope?_holds {u : TranslationUnit} {p : Scope → Bool} {id : ScopeId}
    (found : findScope? u p = some id) : u.Holds .scopes id.index := by
  obtain ⟨slot, isSlot, rfl⟩ := Option.map_eq_some_iff.mp found
  exact (Array.findIdx?_eq_some_iff_getElem.mp isSlot).1

private theorem addNamespace_builds {name : String} {parent : ScopeId}
    (inside : a.unit.Holds .scopes parent.index) :
    Builds a (addNamespace name parent) fun v id => v.Holds .scopes id.index := by
  refine .add fun c => .pure ⟨c.addScope fun r mem => ?_, ?_⟩
  · cases List.mem_singleton.mp mem
    refine ⟨inside, fun slot same => ?_⟩
    cases same
    exact inside
  · simp [TranslationUnit.addNamespace, TranslationUnit.addScope, Holds, tableSize]

/-- A namespace inside a scope is found or added. -/
private theorem namespaceIn_builds {name : String} {parent : ScopeId}
    (inside : a.unit.Holds .scopes parent.index) :
    Builds a (namespaceIn parent name) fun v id => v.Holds .scopes id.index := by
  unfold namespaceIn
  refine .bind .unit fun u b grown same => ?_
  cases same
  split
  · next found => exact .pure (findScope?_holds found)
  · exact addNamespace_builds (grown.holds inside)

/-- A path starts at the scope of the unit, which a consistent unit has, and each name on it leads
to a scope for the next one. -/
theorem namespacePath_builds {path : String} :
    Builds a (namespacePath path) fun v id => v.Holds .scopes id.index := by
  refine .of_consistent fun c => ?_
  exact .foldlM c.holds_root fun name _ parent b _ inside => namespaceIn_builds inside

/-- A tag on a scope changes nothing that is checked. -/
theorem namespaceAttribute_builds {id : ScopeId} {mark : Attribute}
    (inside : a.unit.Holds .scopes id.index) :
    Builds a (namespaceAttribute id mark) fun _ _ => True := by
  refine .add fun c => ?_
  refine .bind (modifyEntry_ends inside) ?_
  rintro scopes rfl
  exact .pure ⟨c.tagScope, trivial⟩

private theorem addRecordScope_builds {id : RecordId} (inside : a.unit.Holds .records id.index) :
    Builds a (addRecordScope id) fun v id => v.Holds .scopes id.index := by
  refine .add fun c => ?_
  refine .bind (c.record_ends inside) fun r fits => ?_
  refine .pure ⟨c.addScope fun ref mem => ?_, ?_⟩
  · simp only [Scope.references, Option.toList_some, List.map_cons, List.map_nil,
      List.cons_append, List.nil_append, List.mem_cons, List.not_mem_nil, or_false] at mem
    rcases mem with rfl | rfl
    · refine ⟨fits.scope, fun slot same => ?_⟩
      cases same
      exact fits.scope
    · exact .of_free rfl inside
  · simp [TranslationUnit.addScope, Holds, tableSize]

/-- The scope of a record is found or opened. -/
theorem recordScope_builds {id : RecordId} (inside : a.unit.Holds .records id.index) :
    Builds a (recordScope id) fun v id => v.Holds .scopes id.index := by
  unfold recordScope
  refine .bind .unit fun u b grown same => ?_
  cases same
  split
  · next found => exact .pure (findScope?_holds found)
  · exact addRecordScope_builds (grown.holds inside)

-- ============================================================ records

/-- A record that fits its unit may be added. -/
private theorem addRecord_builds {r : RecordDecl} (fits : r.Fits a.unit) :
    Builds a (addRecord r) fun v id => v.Holds .records id.index := by
  refine .add fun c => .pure ⟨c.addRecord fits, ?_⟩
  simp [TranslationUnit.addRecord, Holds, tableSize]

/-- So may a record be changed that fits it afterwards. -/
private theorem modifyRecord_builds {id : RecordId} {change : RecordDecl → RecordDecl}
    (inside : a.unit.Holds .records id.index)
    (keeps : ∀ r, r.Fits a.unit → (change r).Fits a.unit) :
    Builds a (modifyRecord id change) fun _ _ => True := by
  refine .add fun c => ?_
  refine .bind (modifyEntry_ends inside) ?_
  rintro records rfl
  exact .pure ⟨c.modifyRecord keeps, trivial⟩

/-- Members that were there or lie inside their tables may be put in the place of the old ones. -/
theorem modifyMembers_builds {id : RecordId} {change : RecordDefinition → RecordDefinition}
    (inside : a.unit.Holds .records id.index)
    (fields : ∀ d, ∀ f ∈ (change d).fields, f ∈ d.fields ∨ a.unit.Holds .types f.type.id.index)
    (bases : ∀ d, ∀ b ∈ (change d).bases, b ∈ d.bases ∨ a.unit.Holds .types b.type.id.index)
    (methods : ∀ d, ∀ m ∈ (change d).methods, m ∈ d.methods ∨ a.unit.Holds .functions m.index) :
    Builds a (modifyMembers id change) fun _ _ => True := by
  refine modifyRecord_builds inside fun r fits => ?_
  refine ⟨fits.scope, fits.pattern, fits.args, fun f mem => ?_, fun b mem => ?_, fun m mem => ?_⟩
  · exact (fields r.members f mem).elim (fits.fields f) fun new => new
  · exact (bases r.members b mem).elim (fits.bases b) fun new => new
  · exact (methods r.members m mem).elim (fits.methods m) fun new => new

private theorem defineRecord_builds {location : Location} {scope : ScopeId} {name : String}
    {tag : RecordTag} (inside : a.unit.Holds .scopes scope.index) :
    Builds a (defineRecord location scope name tag) fun v id => v.Holds .records id.index :=
  addRecord_builds ⟨inside, nofun, nofun, nofun, nofun, nofun⟩

/-- A record is added to a scope of the unit. -/
theorem struct_builds {scope : ScopeId} {name : String}
    (inside : a.unit.Holds .scopes scope.index) :
    Builds a (struct scope name) fun v id => v.Holds .records id.index :=
  .bind userLocation_builds fun _ _ grown _ => defineRecord_builds (grown.holds inside)

theorem union_builds {scope : ScopeId} {name : String}
    (inside : a.unit.Holds .scopes scope.index) :
    Builds a (union scope name) fun v id => v.Holds .records id.index :=
  .bind userLocation_builds fun _ _ grown _ => defineRecord_builds (grown.holds inside)

theorem systemStruct_builds {scope : ScopeId} {name : String}
    (inside : a.unit.Holds .scopes scope.index) :
    Builds a (systemStruct scope name) fun v id => v.Holds .records id.index :=
  .bind systemLocation_builds fun _ _ grown _ => defineRecord_builds (grown.holds inside)

/-- An instance needs its arguments, and stands in a namespace that its path leads to. -/
theorem templateInstance_builds {qualified : String} {args : List QualifiedType}
    (inside : ∀ t ∈ args, a.unit.Holds .types t.id.index) :
    Builds a (templateInstance qualified args) fun v t => v.Holds .types t.id.index := by
  unfold templateInstance
  refine .bind namespacePath_builds fun scope b grown insideScope => ?_
  refine .bind (systemStruct_builds insideScope) fun id d grown' insideId => ?_
  refine .bind (modifyRecord_builds insideId fun r fits => ?_) fun _ e grown'' _ => ?_
  · refine ⟨fits.scope, fits.pattern, fun t mem => ?_, fits.fields, fits.bases, fits.methods⟩
    obtain ⟨arg, inArgs, same⟩ := List.mem_map.mp mem
    cases same
    exact (grown.trans grown').holds (inside t inArgs)
  · exact recordType_builds (grown''.holds insideId)

/-- A tag on a record changes nothing that is checked. -/
theorem recordAttribute_builds {id : RecordId} {mark : Attribute}
    (inside : a.unit.Holds .records id.index) :
    Builds a (recordAttribute id mark) fun _ _ => True := by
  refine modifyRecord_builds inside fun r fits => ?_
  exact ⟨fits.scope, fits.pattern, fits.args, fits.fields, fits.bases, fits.methods⟩

private theorem mem_concat {α : Type} {l : List α} {x y : α} (mem : x ∈ l ++ [y]) :
    x ∈ l ∨ x = y := by
  simpa using mem

/-- A field needs its type, and a record that is there. -/
theorem field_builds {id : RecordId} {name : String} {type : QualifiedType}
    {hasInitializer : Bool} (inside : a.unit.Holds .records id.index)
    (insideType : a.unit.Holds .types type.id.index) :
    Builds a (field id name type hasInitializer) fun _ _ => True := by
  unfold field
  refine .bind userLocation_builds fun location b grown _ => ?_
  refine .bind (modifyMembers_builds (grown.holds inside) (fun d f mem => ?_)
    (fun _ _ => .inl) fun _ _ => .inl) fun _ d grown' _ => ?_
  · rcases mem_concat mem with old | rfl
    · exact .inl old
    · exact .inr (grown.holds insideType)
  · have insideD := (grown.trans grown').holds inside
    exact .bind (.ask fun c => c.record_ends insideD) fun _ _ _ _ => .pure trivial

/-- So does a base. -/
theorem base_builds {id : RecordId} {type : QualifiedType}
    (inside : a.unit.Holds .records id.index) (insideType : a.unit.Holds .types type.id.index) :
    Builds a (base id type) fun _ _ => True := by
  unfold base
  refine .bind userLocation_builds fun location b grown _ => ?_
  refine modifyMembers_builds (grown.holds inside) (fun _ _ => .inl) (fun d f mem => ?_)
    fun _ _ => .inl
  rcases mem_concat mem with old | rfl
  · exact .inl old
  · exact .inr (grown.holds insideType)

-- ============================================================ functions and variables

/-- A function that fits its unit may be added. -/
private theorem addFunction_builds {f : FunctionDecl} (fits : f.Fits a.unit) :
    Builds a (addFunction f) fun v id => v.Holds .functions id.index :=
  .add fun c => c.addFunction_ends fits

private theorem addVariable_builds {d : VariableDecl} (fits : d.Fits a.unit) :
    Builds a (addVariable d) fun v id => v.Holds .vars id.index := by
  refine .add fun c => .pure ⟨c.addVariable fits, ?_⟩
  simp [TranslationUnit.addVariable, Holds, tableSize]

/-- So may a function be changed that fits it afterwards. -/
private theorem modifyFunction_builds {id : FunctionId} {change : FunctionDecl → FunctionDecl}
    (inside : a.unit.Holds .functions id.index)
    (keeps : ∀ f, f.Fits a.unit → (change f).Fits a.unit) :
    Builds a (modifyFunction id change) fun _ _ => True := by
  refine .add fun c => ?_
  refine .bind (modifyEntry_ends inside) ?_
  rintro functions rfl
  exact .pure ⟨c.modifyFunction keeps, trivial⟩

private theorem modifyVariable_builds {id : VariableId} {change : VariableDecl → VariableDecl}
    (inside : a.unit.Holds .vars id.index)
    (keeps : ∀ d, d.Fits a.unit → (change d).Fits a.unit) :
    Builds a (modifyVariable id change) fun _ _ => True := by
  refine .add fun c => ?_
  refine .bind (modifyEntry_ends inside) ?_
  rintro vars rfl
  exact .pure ⟨c.modifyVariable keeps, trivial⟩

/-- A method is added in two steps: as a function of its record, and to the list of methods. -/
theorem method_builds {id : RecordId} {name : String} {kind : FunctionKind}
    (inside : a.unit.Holds .records id.index) :
    Builds a (method id name kind) fun v f => v.Holds .functions f.index := by
  unfold method
  refine .bind userLocation_builds fun location b grown _ => ?_
  refine .bind builtin_builds fun ret d grown' insideRet => ?_
  refine .bind (recordScope_builds ((grown.trans grown').holds inside))
    fun scope e grown'' insideScope => ?_
  have insideE := (grown.trans (grown'.trans grown'')).holds inside
  refine .bind (addFunction_builds ⟨insideScope, grown''.holds insideRet, nofun, ?_, nofun, nofun⟩)
    fun f g grownE insideF => ?_
  · intro id' same
    cases same
    exact insideE
  · refine .bind (modifyMembers_builds (grownE.holds insideE) (fun _ _ => .inl) (fun _ _ => .inl)
      fun d m mem => ?_) fun _ h grownG _ => .pure (grownG.holds insideF)
    rcases mem_concat mem with old | rfl
    · exact .inl old
    · exact .inr insideF

private theorem newParam_builds {param : String × QualifiedType}
    (inside : a.unit.Holds .types param.2.id.index) :
    Builds a (newParam param) fun v id => v.Holds .vars id.index :=
  .bind userLocation_builds fun _ _ grown _ =>
    addVariable_builds ⟨grown.holds inside, nofun, nofun, nofun⟩

/-- A function needs the types of its parameters, which are added before it, and of its result. -/
theorem function_builds {name : String} {params : List (String × QualifiedType)}
    {ret : QualifiedType} (insideParams : ∀ p ∈ params, a.unit.Holds .types p.2.id.index)
    (insideRet : a.unit.Holds .types ret.id.index) :
    Builds a (function name params ret) fun v f => v.Holds .functions f.index := by
  refine .of_consistent fun c => ?_
  unfold function
  refine .bind userLocation_builds fun location b grown _ => ?_
  have made : Builds b (params.mapM newParam) fun v ids => ∀ id ∈ ids, v.Holds .vars id.index :=
    .mapM (fun _ _ _ grown => grown.holds) fun p mem d grown' =>
      newParam_builds ((grown.trans grown').holds (insideParams p mem))
  refine .bind made fun ids d grown' insideIds => ?_
  have all := grown.trans grown'
  exact addFunction_builds
    ⟨all.holds c.holds_root, all.holds insideRet, insideIds, nofun, nofun, nofun⟩

/-- A variable needs its type and its owner. -/
theorem newVariable_builds {owner : Option FunctionId} {name : String} {type : QualifiedType}
    {kind : VariableKind} (insideOwner : ∀ f, owner = some f → a.unit.Holds .functions f.index)
    (insideType : a.unit.Holds .types type.id.index) :
    Builds a (newVariable owner name type kind) fun v id => v.Holds .vars id.index :=
  .bind userLocation_builds fun _ _ grown _ => addVariable_builds
    ⟨grown.holds insideType, nofun, fun f known => grown.holds (insideOwner f known), nofun⟩

private theorem appendParam_builds {f : FunctionId} {param : String × QualifiedType}
    (inside : a.unit.Holds .functions f.index)
    (insideType : a.unit.Holds .types param.2.id.index) :
    Builds a (appendParam f param) fun v id => v.Holds .vars id.index := by
  unfold appendParam
  refine .bind userLocation_builds fun location b grown _ => ?_
  refine .bind (addVariable_builds ⟨grown.holds insideType, nofun, ?_, nofun⟩)
    fun id d grown' insideId => ?_
  · intro f' same
    cases same
    exact grown.holds inside
  · refine .bind (modifyFunction_builds ((grown.trans grown').holds inside) fun g fits => ?_)
      fun _ e grown'' _ => .pure (grown''.holds insideId)
    refine ⟨fits.scope, fits.ret, fun p mem => ?_, fits.parent, fits.body, fits.pattern⟩
    rcases mem_concat mem with old | rfl
    · exact fits.params p old
    · exact insideId

/-- Parameters that are appended later are added one by one, and each is then listed. -/
theorem appendParams_builds {f : FunctionId} {params : List (String × QualifiedType)}
    (inside : a.unit.Holds .functions f.index)
    (insideTypes : ∀ p ∈ params, a.unit.Holds .types p.2.id.index) :
    Builds a (appendParams f params) fun v ids => ∀ id ∈ ids, v.Holds .vars id.index :=
  .mapM (fun _ _ _ grown => grown.holds) fun p mem _ grown =>
    appendParam_builds (grown.holds inside) (grown.holds (insideTypes p mem))

/-- The one operation that can ask for more than there is. -/
theorem paramAt_builds {f : FunctionId} {i : Nat} {decl : FunctionDecl}
    (look : a.unit.function f = .ok decl) (exists_ : i < decl.params.length) :
    Builds a (paramAt f i) fun v id => v.Holds .vars id.index := by
  have asked : Builds a (ask (·.function f)) fun v d => d = decl ∧ d.Fits v := by
    refine .ask fun c => ?_
    rw [look]
    exact ⟨rfl, fits_of_function (c.functions _ decl (eq_of_entry look))⟩
  refine .bind asked fun d b _ known => ?_
  obtain ⟨rfl, fits⟩ := known
  rw [List.getElem?_eq_getElem exists_]
  exact .pure (fits.params _ (List.getElem_mem exists_))

/-- A tag on a variable changes nothing that is checked. -/
theorem variableAttribute_builds {id : VariableId} {mark : Attribute}
    (inside : a.unit.Holds .vars id.index) :
    Builds a (variableAttribute id mark) fun _ _ => True :=
  modifyVariable_builds inside fun _ fits => ⟨fits.type, fits.declStmt, fits.function, fits.init⟩

/-- An initializer has to fit the unit in which it stands. -/
theorem setInitializer_builds {id : VariableId} {e : Expr} (inside : a.unit.Holds .vars id.index)
    (fits : e.Fits a.unit) : Builds a (setInitializer id e) fun _ _ => True := by
  refine modifyVariable_builds inside fun d fitsD => ?_
  refine ⟨fitsD.type, fitsD.declStmt, fitsD.function, fun e' same => ?_⟩
  cases same
  exact fits

/-- A body is a statement of the unit. What is below it has been checked when it was added. -/
theorem setBody_builds {f : FunctionId} {body : StmtId} (inside : a.unit.Holds .functions f.index)
    (insideBody : a.unit.Holds .statements body.index) :
    Builds a (setBody f body) fun _ _ => True := by
  refine modifyFunction_builds inside fun g fits => ?_
  refine ⟨fits.scope, fits.ret, fits.params, fits.parent, fun body' same => ?_, fits.pattern⟩
  cases same
  exact insideBody

-- ============================================================ expressions

/-- An expression fits if its type is there, its own references are, and its parts fit. -/
theorem expr_builds {type : QualifiedType} {node : Node}
    (inside : a.unit.Holds .types type.id.index) (fits : node.Fits a.unit)
    (parts : ∀ e ∈ node.children, e.Fits a.unit) :
    Builds a (expr type node) fun v e => e.Fits v := by
  refine .bind userLocation_builds fun location b grown _ => .pure ?_
  refine Expr.fits_iff.mpr ⟨grown.holds inside, grown.node fits, fun e mem => ?_⟩
  exact grown.expr (parts e mem)

/-- A reference to a variable has the type of the variable. -/
theorem variableRef_builds {id : VariableId} (inside : a.unit.Holds .vars id.index) :
    Builds a (variableRef id) fun v e => e.Fits v := by
  refine .bind (.ask fun c => c.variable_ends inside) fun d b grown fits => ?_
  exact expr_builds fits.type (grown.holds inside) nofun

/-- A reference to a function needs the function only, since its type is void. -/
theorem functionRef_builds {id : FunctionId} (inside : a.unit.Holds .functions id.index) :
    Builds a (functionRef id) fun v e => e.Fits v := by
  refine .bind builtin_builds fun t b grown insideType => ?_
  exact expr_builds insideType (grown.holds inside) nofun

/-- A leaf that refers to nothing, of a builtin type. -/
theorem leaf_builds {kind : Builtin} {node : Node} (fits : ∀ u, node.Fits u)
    (leaf : node.children = []) :
    Builds a (do expr (← builtin kind) node) fun v e => e.Fits v := by
  refine .bind builtin_builds fun t b _ insideType => expr_builds insideType (fits _) ?_
  rw [leaf]
  exact nofun

/-- A member is named and needs no field, only a type. -/
theorem member_builds {base : Expr} {name : String} {type : QualifiedType} {isArrow : Bool}
    (fits : base.Fits a.unit) (inside : a.unit.Holds .types type.id.index) :
    Builds a (member base name type isArrow) fun v e => e.Fits v :=
  expr_builds inside trivial fun _ mem => List.mem_singleton.mp mem ▸ fits

/-- An assignment has the type of its left side. -/
theorem assign_builds {lhs rhs : Expr} (left : lhs.Fits a.unit) (right : rhs.Fits a.unit) :
    Builds a (assign lhs rhs) fun v e => e.Fits v := by
  refine expr_builds (Expr.fits_iff.mp left).1 trivial fun e mem => ?_
  rcases List.mem_cons.mp mem with rfl | mem
  · exact left
  · exact List.mem_singleton.mp mem ▸ right

/-- A call needs its callee and arguments that fit. -/
theorem call_builds {callee : FunctionId} {args : List Expr}
    (inside : a.unit.Holds .functions callee.index) (fits : ∀ e ∈ args, e.Fits a.unit) :
    Builds a (call callee args) fun v e => e.Fits v := by
  refine .bind (.ask fun c => c.function_ends inside) fun f b grown ofCallee => ?_
  refine expr_builds ofCallee.ret (fun id same => ?_) fun e mem => grown.expr (fits e mem)
  cases same
  exact grown.holds inside

/-- A call of a member needs an object besides. -/
theorem memberCall_builds {base : Expr} {callee : FunctionId} {args : List Expr} {isArrow : Bool}
    (fitsBase : base.Fits a.unit) (inside : a.unit.Holds .functions callee.index)
    (fits : ∀ e ∈ args, e.Fits a.unit) :
    Builds a (memberCall base callee args isArrow) fun v e => e.Fits v := by
  refine .bind (.ask fun c => c.function_ends inside) fun f b grown ofCallee => ?_
  refine expr_builds ofCallee.ret (fun id same => ?_) fun e mem => ?_
  · cases same
    exact grown.holds inside
  · rcases List.mem_cons.mp mem with rfl | mem
    · exact grown.expr fitsBase
    · exact grown.expr (fits e mem)

/-- A lambda gets a record of its own, which is added first. Captured variables have to be there. -/
theorem lambda_builds {captures : List CaptureKind}
    (inside : ∀ kind ∈ captures, ∀ id, kind.captured? = some id → a.unit.Holds .vars id.index) :
    Builds a (lambda captures) fun v e => e.Fits v := by
  refine .of_consistent fun c => ?_
  unfold lambda
  refine .bind (struct_builds c.holds_root) fun closure b grown insideClosure => ?_
  refine .bind (modifyRecord_builds insideClosure fun r fits => ?_) fun _ d grown' _ => ?_
  · exact ⟨fits.scope, fits.pattern, fits.args, fits.fields, fits.bases, fits.methods⟩
  refine .bind (recordType_builds (grown'.holds insideClosure)) fun t e grown'' insideType => ?_
  have insideE := grown''.holds (grown'.holds insideClosure)
  have all := grown.trans (grown'.trans grown'')
  have placed : Builds e (captures.mapM fun kind => return Capture.mk kind (← userLocation))
      fun v made => ∀ capture ∈ made, ∀ id, capture.kind.captured? = some id →
        v.Holds .vars id.index := by
    refine .mapM (fun _ _ _ grown known id captured => grown.holds (known id captured))
      fun kind mem f grownE => ?_
    refine .bind userLocation_builds fun location g grownF _ => .pure fun id known => ?_
    exact (all.trans (grownE.trans grownF)).holds (inside kind mem id known)
  refine .bind placed fun made f grownE captured => ?_
  refine expr_builds (grownE.holds insideType) ⟨fun id same => ?_, captured⟩ nofun
  cases same
  exact grownE.holds insideE

-- ============================================================ statements

/-- A statement needs its children and the variables that it declares, and links them back to it. -/
theorem stmt_builds {shape : StmtShape}
    (children : ∀ id ∈ shape.children, a.unit.Holds .statements id.index)
    (declared : ∀ id ∈ shape.declared, a.unit.Holds .vars id.index)
    (exprs : ∀ e ∈ shape.exprs, e.Fits a.unit) :
    Builds a (stmt shape) fun v id => v.Holds .statements id.index := by
  refine .bind userLocation_builds fun location b grown _ => .add fun c => ?_
  -- a child lies inside the table, so it precedes the new slot
  refine c.addStmt_ends ⟨nofun, fun id mem => ?_, fun id mem => grown.holds (declared id mem),
    fun e mem => grown.expr (exprs e mem)⟩
  have inside := grown.holds (children id mem)
  exact ⟨inside, inside⟩

end Assemble

end SafeDialect
