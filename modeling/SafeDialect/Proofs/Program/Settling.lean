/-
A unit that is put together entry by entry is linked at every point.

Each operation that adds an owner links back what the owner lists, and the new owner comes behind
all others, so it is the last that lists. The only operation that lets an older owner list more adds
an entry for that, which nobody else can list. So every operation keeps settled links settled, and
linking the unit as a whole finds nothing to do, whatever operations have come before.
-/
import SafeDialect.Proofs.Program.BackLinks
import SafeDialect.Proofs.Program.Operations

namespace SafeDialect

namespace TranslationUnit

variable {u v : TranslationUnit}

-- ============================================================ growing a settled unit

/-- Changing an entry and then looking at part of it, if the change is one of that part. -/
private theorem map_modify {α β : Type} {entries : Array α} {index : Nat} {change : α → α}
    {f : α → β}
    (change' : β → β) (commutes : ∀ a, f (change a) = change' (f a)) :
    (entries.modify index change).map f = (entries.map f).modify index change' := by
  apply Array.ext_getElem?
  intro slot
  rw [Array.getElem?_map, Array.getElem?_modify, Array.getElem?_modify, Array.getElem?_map]
  split
  · rw [Option.map_map, Option.map_map]
    congr 1
    funext a
    exact commutes a
  · rfl

/-- And if the change is not one of that part. -/
private theorem map_modify_eq {α β : Type} {entries : Array α} {index : Nat} {change : α → α}
    {f : α → β}
    (same : ∀ a, f (change a) = f a) : (entries.modify index change).map f = entries.map f := by
  rw [map_modify id same]
  apply Array.ext_getElem?
  simp [Array.getElem?_modify]

/-- No link runs through a file, a type, a scope or a record. -/
theorem Settled.apart (settled : u.Settled) {files : Array SourceFile} {types : TypeTable}
    {scopes : Array Scope} {records : Array RecordDecl} :
    ({ u with files, types, scopes, records } : TranslationUnit).Settled :=
  ⟨settled.nesting, settled.declarations, settled.parameters⟩

/-- A variable may be changed apart from its links. -/
theorem Settled.modifyVariable (settled : u.Settled) {index : Nat}
    {change : VariableDecl → VariableDecl} (declStmt : ∀ d, (change d).declStmt = d.declStmt)
    (owner : ∀ d, (change d).function = d.function) :
    ({ u with vars := u.vars.modify index change } : TranslationUnit).Settled := by
  obtain ⟨nesting, declarations, parameters⟩ := settled
  refine ⟨nesting, ?_, ?_⟩
  · unfold TranslationUnit.declarations
    rw [map_modify_eq fun d => by rw [declStmt]]
    exact declarations
  · unfold TranslationUnit.parameters
    rw [map_modify_eq fun d => by rw [owner]]
    exact parameters

/-- A function may be changed apart from its parameters. -/
theorem Settled.modifyFunction (settled : u.Settled) {index : Nat}
    {change : FunctionDecl → FunctionDecl} (params : ∀ f, (change f).params = f.params) :
    ({ u with functions := u.functions.modify index change } : TranslationUnit).Settled := by
  obtain ⟨nesting, declarations, parameters⟩ := settled
  refine ⟨nesting, declarations, ?_⟩
  unfold TranslationUnit.parameters
  rw [map_modify_eq fun f => by rw [params]]
  exact parameters

/-- A new variable is listed nowhere yet. -/
theorem Settled.addVariable (settled : u.Settled) (d : VariableDecl) :
    (u.addVariable d).1.Settled := by
  refine ⟨settled.nesting, ?_, ?_⟩
  · unfold TranslationUnit.declarations TranslationUnit.addVariable
    rw [Array.map_push]
    exact settled.declarations.push _
  · unfold TranslationUnit.parameters TranslationUnit.addVariable
    rw [Array.map_push]
    exact settled.parameters.push _

/-- A new variable that becomes the last parameter of a function. -/
theorem Settled.appendParam (settled : u.Settled) {f : FunctionId}
    (exists_ : f.index < u.functions.size) {d : VariableDecl} (owned : d.function = some f) :
    ({ (u.addVariable d).1 with
      functions := u.functions.modify f.index fun g =>
        { g with params := g.params ++ [(u.addVariable d).2] } } : TranslationUnit).Settled := by
  refine ⟨settled.nesting, (settled.addVariable d).declarations, ?_⟩
  have inside : f.index < u.parameters.lists.size := by rwa [size_parameters]
  have appended := settled.parameters.append inside
  have backs : u.parameters.backs.size = u.vars.size := Array.size_map
  rw [backs] at appended
  unfold TranslationUnit.parameters TranslationUnit.addVariable
  dsimp only
  rw [Array.map_push, owned, map_modify (· ++ [u.vars.size]) fun g => by simp]
  exact appended

/-- The back links of entries of which some are linked to one owner. -/
theorem map_back_mapIdx_ite {α ι : Type} {entries : Array α} {slots : List Nat} {set : α → α}
    {back : α → Option ι} {index : ι → Nat} (owner : Nat)
    (linked : ∀ a, (back (set a)).map index = some owner) :
    (entries.mapIdx fun slot a => if slot ∈ slots then set a else a).map
        (fun a => (back a).map index) =
      (entries.map fun a => (back a).map index).mapIdx fun slot b =>
        if slot ∈ slots then some owner else b := by
  refine map_mapIdx fun slot a => ?_
  by_cases mem : slot ∈ slots
  · rw [if_pos mem, if_pos mem, linked]
  · rw [if_neg mem, if_neg mem]

/-- A new function is the last that has its parameters. -/
theorem Settled.addFunction (settled : u.Settled) {f : FunctionDecl} {id : FunctionId}
    (run : u.addFunction f = .ok (v, id)) : v.Settled := by
  obtain ⟨w, owns, same⟩ := bind_eq_ok.mp run
  obtain ⟨inside, rfl⟩ := foldlM_setOwner_eq_ok_iff.mp owns
  cases same
  refine ⟨settled.nesting, ?_, ?_⟩
  · unfold TranslationUnit.declarations withOwner
    rw [map_mapIdx_eq fun slot d => by split <;> rfl]
    exact settled.declarations
  · have taken : ∀ slot ∈ f.params.map VariableId.index, slot < u.parameters.backs.size := by
      simpa [TranslationUnit.parameters] using inside
    have adopted := settled.parameters.adopt taken
    unfold Links.adopt at adopted
    rw [size_parameters] at adopted
    unfold TranslationUnit.parameters withOwner
    rw [Array.map_push, map_back_mapIdx_ite u.functions.size fun d => rfl]
    exact adopted

/-- A new statement is the last that lists its children and declares its variables. -/
theorem Settled.addStmt (settled : u.Settled) {s : Stmt} {id : StmtId}
    (run : u.addStmt s = .ok (v, id)) : v.Settled := by
  obtain ⟨w, adopts, same⟩ := bind_eq_ok.mp run
  obtain ⟨s', found, children, declared, rfl⟩ := adopt_eq_ok_iff.mp adopts
  cases same
  rw [Array.getElem?_push_size] at found
  cases found
  refine ⟨?_, ?_, ?_⟩
  -- only the nesting gets a new slot: a statement is a child, and no variable or parameter
  · have pushed := settled.nesting.push (s.parent.map StmtId.index)
    have listed : ∀ slot ∈ s.children.map StmtId.index,
        slot < (u.nesting.backs.push (s.parent.map StmtId.index)).size := by
      simpa [TranslationUnit.nesting] using children
    have adopted := pushed.adopt listed
    unfold Links.adopt at adopted
    rw [size_nesting] at adopted
    unfold TranslationUnit.nesting withDeclStmt withParent
    dsimp only
    rw [map_back_mapIdx_ite u.statements.size fun d => rfl,
      map_mapIdx_eq fun slot s => by split <;> rfl, Array.map_push, Array.map_push]
    exact adopted
  · have listed : ∀ slot ∈ s.declared.map VariableId.index,
        slot < u.declarations.backs.size := by
      simpa [TranslationUnit.declarations] using declared
    have adopted := settled.declarations.adopt listed
    unfold Links.adopt at adopted
    rw [size_declarations] at adopted
    unfold TranslationUnit.declarations withDeclStmt withParent
    dsimp only
    rw [map_back_mapIdx_ite u.statements.size fun d => rfl,
      map_mapIdx_eq fun slot s => by split <;> rfl, Array.map_push]
    exact adopted
  · unfold TranslationUnit.parameters withDeclStmt withParent
    dsimp only
    rw [map_mapIdx_eq fun slot d => by split <;> rfl]
    exact settled.parameters

end TranslationUnit

-- ============================================================ steps that keep links settled

/-- A step that keeps the links of a unit settled, if it answers. -/
def Settles {α : Type} (step : Assemble α) : Prop :=
  ∀ a : Assembly, a.unit.Settled → Runs (fun _ => True) step a fun _ b => b.unit.Settled

namespace Settles

variable {α β : Type} {step : Assemble α}

/-- What is at hand settles, as nothing is done. -/
theorem pure {x : α} : Settles (Pure.pure x) := fun _ settled => settled

/-- A step that fails leaves no unit to settle. -/
theorem throw {fault : Fault} : Settles (throw fault : Assemble α) := fun _ _ => trivial

/-- Steps one after the other. -/
theorem bind {next : α → Assemble β} (first : Settles step) (then_ : ∀ x, Settles (next x)) :
    Settles (step >>= next) :=
  fun a settled => .bind (first a settled) fun x b settled => then_ x b settled

/-- What is done to the answer alone. -/
theorem map {f : α → β} (h : Settles step) : Settles (f <$> step) := by
  rw [map_eq_pure_bind]
  exact .bind h fun _ => .pure

/-- Looking at the unit does not change it. -/
theorem unit : Settles Assemble.unit := fun _ settled => settled

/-- Nor does asking it something. -/
theorem ask {question : TranslationUnit → Result α} : Settles (Assemble.ask question) := by
  intro a settled
  refine Ends.mono (Runs.lift (s := a) (.always (question a.unit))) fun end_ known => ?_
  rw [known.2]
  exact settled

/-- An addition settles if the change of the unit keeps it settled. -/
theorem add {change : TranslationUnit → Result (TranslationUnit × α)}
    (keeps : ∀ u : TranslationUnit, u.Settled →
      Ends (fun _ => True) (change u) fun end_ => end_.1.Settled) :
    Settles (Assemble.add change) :=
  fun a settled => runs_add (keeps a.unit settled)

/-- One step for each element. -/
theorem mapM {f : α → Assemble β} {l : List α} (each : ∀ x, Settles (f x)) :
    Settles (l.mapM f) := by
  induction l with
  | nil => exact .pure
  | cons head tail ih =>
    rw [List.mapM_cons]
    exact .bind (each head) fun _ => .bind ih fun _ => .pure

/-- One step for each element, with a value that is handed on. -/
theorem foldlM {f : β → α → Assemble β} {l : List α} {init : β} (each : ∀ y x, Settles (f y x)) :
    Settles (l.foldlM f init) := by
  induction l generalizing init with
  | nil => exact .pure
  | cons head tail ih =>
    rw [List.foldlM_cons]
    exact .bind (each init head) fun _ => ih

end Settles

namespace Assemble

open TranslationUnit

/-- Places count up an offset, and the unit stays. -/
private theorem userLocation_settles : Settles userLocation := fun _ settled => settled

private theorem systemLocation_settles : Settles systemLocation := fun _ settled => settled

/-- Types have no back links. -/
private theorem typeOf_settles {shape : TypeShape} : Settles (typeOf shape) := by
  refine .add fun u settled => .bind (.always _) fun end_ _ => ?_
  exact .pure settled.apart

/-- Scopes have none either. -/
private theorem addScope_settles {scope : TranslationUnit → Scope} :
    Settles (add fun u => Pure.pure (u.addScope (scope u))) :=
  .add fun _ settled => .pure settled.apart

private theorem namespacePath_settles {path : String} : Settles (namespacePath path) := by
  refine .foldlM fun parent name => ?_
  unfold namespaceIn
  refine .bind .unit fun u => ?_
  split
  · exact .pure
  · exact addScope_settles

/-- Nor have their attributes. -/
private theorem namespaceAttribute_settles {id : ScopeId} {mark : Attribute} :
    Settles (namespaceAttribute id mark) := by
  refine .add fun u settled => .bind (.always _) fun scopes _ => ?_
  exact .pure settled.apart

private theorem recordScope_settles {id : RecordId} : Settles (recordScope id) := by
  refine .bind .unit fun u => ?_
  split
  · exact .pure
  · refine .add fun u settled => .bind (.always _) fun r _ => ?_
    exact .pure settled.apart

/-- Records list no statement and no parameter, so they may be added freely. -/
private theorem addRecord_settles {r : RecordDecl} : Settles (addRecord r) :=
  .add fun _ settled => .pure settled.apart

/-- And be changed freely. -/
private theorem modifyRecord_settles {id : RecordId} {change : RecordDecl → RecordDecl} :
    Settles (modifyRecord id change) := by
  refine .add fun u settled => .bind (.always _) fun records _ => ?_
  exact .pure settled.apart

private theorem systemStruct_settles {scope : ScopeId} {name : String} :
    Settles (systemStruct scope name) :=
  .bind systemLocation_settles fun _ => addRecord_settles

private theorem templateInstance_settles {qualified : String} {args : List QualifiedType} :
    Settles (templateInstance qualified args) := by
  refine .bind namespacePath_settles fun scope => .bind systemStruct_settles fun id => ?_
  exact .bind modifyRecord_settles fun _ => typeOf_settles

private theorem field_settles {id : RecordId} {name : String} {type : QualifiedType}
    {hasInitializer : Bool} : Settles (field id name type hasInitializer) := by
  refine .bind userLocation_settles fun location => .bind modifyRecord_settles fun _ => ?_
  exact .bind .ask fun _ => .pure

/-- A function that is added takes its parameters over. -/
private theorem addFunction_settles {f : FunctionDecl} : Settles (addFunction f) :=
  .add fun _ settled => .mono (.self (.always _)) fun _ ran => settled.addFunction ran.1

/-- A variable that is added is listed by nobody, and so belongs to nobody. -/
private theorem addVariable_settles {d : VariableDecl} : Settles (addVariable d) :=
  .add fun _ settled => .pure (settled.addVariable d)

/-- A function that keeps its parameters may be changed. -/
private theorem modifyFunction_settles {id : FunctionId} {change : FunctionDecl → FunctionDecl}
    (params : ∀ f, (change f).params = f.params) : Settles (modifyFunction id change) := by
  refine .add fun u settled => .bind_eq (.always _) fun functions ran _ => ?_
  obtain ⟨-, rfl⟩ := modifyEntry_eq_ok_iff.mp ran
  exact .pure (settled.modifyFunction params)

/-- A variable that keeps its links may be changed. -/
private theorem modifyVariable_settles {id : VariableId} {change : VariableDecl → VariableDecl}
    (declStmt : ∀ d, (change d).declStmt = d.declStmt)
    (owner : ∀ d, (change d).function = d.function) : Settles (modifyVariable id change) := by
  refine .add fun u settled => .bind_eq (.always _) fun vars ran _ => ?_
  obtain ⟨-, rfl⟩ := modifyEntry_eq_ok_iff.mp ran
  exact .pure (settled.modifyVariable declStmt owner)

/-- A method is a function without parameters and a change of its record. -/
private theorem method_settles {id : RecordId} {name : String} {kind : FunctionKind} :
    Settles (method id name kind) := by
  refine .bind userLocation_settles fun location => .bind typeOf_settles fun ret => ?_
  refine .bind recordScope_settles fun scope => .bind addFunction_settles fun f => ?_
  exact .bind modifyRecord_settles fun _ => .pure

/-- Parameters are added first, and then taken over by their function. -/
private theorem function_settles {name : String} {params : List (String × QualifiedType)}
    {ret : QualifiedType} : Settles (function name params ret) := by
  refine .bind userLocation_settles fun location => ?_
  have made (param : String × QualifiedType) : Settles (newParam param) :=
    .bind userLocation_settles fun _ => addVariable_settles
  exact .bind (.mapM made) fun ids => addFunction_settles

/-- The variable is new when the function takes it, so no other function does. -/
theorem appendParam_settles {f : FunctionId} {param : String × QualifiedType} :
    Settles (appendParam f param) := by
  refine .bind userLocation_settles fun location a settled => ?_
  let d : VariableDecl := { VariableDecl.declared param.1 param.2 location .param with
    function := some f }
  have added : Runs (fun _ => True) (addVariable d) a fun id b =>
      id = (a.unit.addVariable d).2 ∧ b.unit = (a.unit.addVariable d).1 := ⟨rfl, rfl⟩
  refine .bind added fun id b known => ?_
  obtain ⟨rfl, grown⟩ := known
  refine .bind (runs_add (.bind_eq (.always _) fun functions ran _ => .pure ?_))
    fun _ e settled => .pure settled
  obtain ⟨exists_, rfl⟩ := modifyEntry_eq_ok_iff.mp ran
  rw [grown] at exists_ ⊢
  exact settled.appendParam exists_ rfl

private theorem paramAt_settles {f : FunctionId} {i : Nat} : Settles (paramAt f i) := by
  refine .bind .ask fun decl => ?_
  split
  · exact .pure
  · exact .throw

private theorem newVariable_settles {owner : Option FunctionId} {name : String}
    {type : QualifiedType}
    {kind : VariableKind} : Settles (newVariable owner name type kind) :=
  .bind userLocation_settles fun _ => addVariable_settles

/-- An expression stands in no table. -/
private theorem expr_settles {type : QualifiedType} {node : Node} : Settles (expr type node) :=
  .bind userLocation_settles fun _ => .pure

/-- A lambda adds a record and a type. -/
private theorem lambda_settles {captures : List CaptureKind} : Settles (lambda captures) := by
  refine .bind (.bind userLocation_settles fun _ => addRecord_settles) fun closure => ?_
  refine .bind modifyRecord_settles fun _ => ?_
  refine .bind typeOf_settles fun type => .bind (.mapM fun kind => ?_) fun _ => expr_settles
  exact .bind userLocation_settles fun _ => .pure

/-- A statement that is added adopts what it lists. -/
private theorem stmt_settles {shape : StmtShape} : Settles (stmt shape) := by
  refine .bind userLocation_settles fun location => .add fun u settled => ?_
  exact .mono (.self (.always _)) fun _ ran => settled.addStmt ran.1

end Assemble

open Assemble in
/-- Every operation keeps links settled, whatever ids it is given. -/
theorem Operation.run_settles (op : Operation) : Settles op.run := by
  cases op with
  | userLocation => exact .map userLocation_settles
  | systemLocation => exact .map systemLocation_settles
  | namespacePath path => exact .map namespacePath_settles
  | namespaceAttribute id mark => exact .map namespaceAttribute_settles
  | recordScope id => exact .map recordScope_settles
  | builtin | int | void | pointerTo | referenceTo | recordType => exact .map typeOf_settles
  | templateInstance qualified args => exact .map templateInstance_settles
  | struct | union => exact .map (.bind userLocation_settles fun _ => addRecord_settles)
  | systemStruct scope name => exact .map systemStruct_settles
  | recordAttribute id mark => exact .map modifyRecord_settles
  | field id name t hasInitializer => exact .map field_settles
  | base id t => exact .map (.bind userLocation_settles fun _ => modifyRecord_settles)
  | method id name kind => exact .map method_settles
  | function name params ret => exact .map function_settles
  | appendParams f params => exact .map (.mapM fun _ => appendParam_settles)
  | paramAt f i => exact .map paramAt_settles
  | setBody f body => exact .map (modifyFunction_settles fun _ => rfl)
  | newVariable | localVariable | globalVariable => exact .map newVariable_settles
  | variableAttribute | setInitializer =>
    exact .map (modifyVariable_settles (fun _ => rfl) fun _ => rfl)
  | expr | thisObject | member | assign => exact .map expr_settles
  | variableRef | call | memberCall => exact .map (.bind .ask fun _ => expr_settles)
  | functionRef | nullPointer | integer => exact .map (.bind typeOf_settles fun _ => expr_settles)
  | lambda captures => exact .map lambda_settles
  | stmt | declareStmt | exprStmt | returnStmt | compound => exact .map stmt_settles

-- ============================================================ one operation after the other

namespace Workbench

open TranslationUnit

variable {w : Workbench}

/-- The empty unit has nothing to link. -/
private theorem start_settled : start.assembly.unit.Settled where
  nesting := Links.settled_of_empty Array.map_empty
  declarations := Links.settled_of_empty Array.map_empty
  parameters := Links.settled_of_empty Array.map_empty

/-- What an operation leaves behind is settled if it was before. -/
theorem settled_perform (settled : w.assembly.unit.Settled) {op : Operation} {next : Workbench}
    (ran : w.perform op = .ok next) : next.assembly.unit.Settled := by
  obtain ⟨end_, run, same⟩ := bind_eq_ok.mp ran
  cases same
  have kept := op.run_settles w.assembly settled
  unfold Runs at kept
  rw [show op.run w.assembly = _ from run] at kept
  exact kept

/-- So is every point of a sequence of operations. -/
theorem settled_performAll (settled : w.assembly.unit.Settled) {ops : List Operation}
    {points : List Workbench} (ran : w.performAll ops = .ok points) :
    ∀ p ∈ points, p.assembly.unit.Settled := by
  induction ops generalizing w points with
  | nil =>
    cases ran
    exact fun p mem => List.mem_singleton.mp mem ▸ settled
  | cons op rest ih =>
    obtain ⟨next, first, rest⟩ := bind_eq_ok.mp ran
    obtain ⟨later, ofNext, same⟩ := bind_eq_ok.mp rest
    cases same
    intro p mem
    rcases List.mem_cons.mp mem with rfl | mem
    · exact settled
    · exact ih (settled_perform settled first) ofNext p mem

/-- Linking finds nothing to do in a unit that operations have put together, whatever they were and
wherever they stopped. In any consistent unit it leaves nothing to do for a second time: a statement
that others list is inside the last of them, a variable that statements declare is declared in the
last of them, and one that functions take belongs to the last of them. What nobody lists stays as it
was. -/
theorem linked_throughout :
    (∀ ops points, start.performAll ops = .ok points →
      ∀ p ∈ points, p.assembly.unit.link = .ok p.assembly.unit)
    ∧ ∀ u : TranslationUnit, u.inconsistency? = none →
      ∃ linked, u.link = .ok linked ∧ linked.link = .ok linked
        ∧ (∀ inner outer : StmtId, u.Holds .statements inner.index →
          (linked.Within inner outer ↔
            u.ListsLast outer inner ∨ (u.Unlisted inner ∧ u.Within inner outer)))
        ∧ (∀ (var : VariableId) (s : StmtId), u.Holds .vars var.index →
          (linked.DeclaredIn var s ↔
            u.DeclaresLast s var ∨ ((∀ s', ¬ u.Declares s' var) ∧ u.DeclaredIn var s)))
        ∧ ∀ (var : VariableId) (f : FunctionId), u.Holds .vars var.index →
          (linked.OwnedBy var f ↔
            u.TakesLast f var ∨ ((∀ f', ¬ u.Takes f' var) ∧ u.OwnedBy var f)) := by
  constructor
  · intro ops points ran p mem
    exact (settled_performAll start_settled ran p mem).link_eq
  · intro u consistent
    have c := inconsistency?_eq_none_iff.mp consistent
    obtain ⟨linked, link, -⟩ := (link_ends c).answer
    refine ⟨linked, link, (settled_of_link c.listsInside link).link_eq, ?_, ?_, ?_⟩
    · exact fun inner outer inside => within_link_iff link inside
    · exact fun var s inside => declaredIn_link_iff c.listsInside link inside
    · exact fun var f inside => ownedBy_link_iff c.listsInside link inside

/-- A unit that is not linked yet. Both declarations declare the one variable, the last two blocks
share the first declaration, and both functions take the variable:

    0: int x;  1: int x;  2: { 0 1 }  3: { 0 }
-/
def sharedParts : TranslationUnit where
  files := #[⟨"shared.cpp", false⟩]
  types := ⟨#[.builtin .int]⟩
  scopes := #[{ name := none, kind := .translationUnit, parent := none, attributes := .empty }]
  records := #[]
  functions := #[
    { FunctionDecl.declared "f" ⟨0⟩ .unknown .free ⟨⟨0⟩, false⟩ with params := [⟨0⟩] },
    { FunctionDecl.declared "g" ⟨0⟩ .unknown .free ⟨⟨0⟩, false⟩ with params := [⟨0⟩] }]
  vars := #[.declared "x" ⟨⟨0⟩, false⟩ .unknown .localVar]
  statements := #[
    { parent := none, location := .unknown, shape := .declare [⟨0⟩] },
    { parent := none, location := .unknown, shape := .declare [⟨0⟩] },
    { parent := none, location := .unknown, shape := .compound [⟨0⟩, ⟨1⟩] },
    { parent := none, location := .unknown, shape := .compound [⟨0⟩] }]

/-- The units of all thirteen steps are linked. The shared declaration and variable end up with the
last block, the last declaration and the last function that list them. -/
theorem sharedParts_linked :
    (∃ points, start.performAll nodeSteps = .ok points ∧ points.length = 13
      ∧ ∀ p ∈ points, p.assembly.unit.link = .ok p.assembly.unit)
    ∧ sharedParts.inconsistency? = none
    ∧ ∃ linked, sharedParts.link = .ok linked ∧ linked.link = .ok linked
      ∧ linked.Within ⟨0⟩ ⟨3⟩ ∧ linked.DeclaredIn ⟨0⟩ ⟨1⟩ ∧ linked.OwnedBy ⟨0⟩ ⟨1⟩ := by
  constructor
  · have allowed : start.AllowsAll nodeSteps := by decide +kernel
    obtain ⟨points, ran, length, -⟩ := start_sound.performAll allowed
    exact ⟨points, ran, length, linked_throughout.1 nodeSteps points ran⟩
  · have consistent : sharedParts.inconsistency? = none := by decide
    obtain ⟨linked, link, again, within, declared, owned⟩ :=
      linked_throughout.2 sharedParts consistent
    refine ⟨consistent, linked, link, again, ?_, ?_, ?_⟩
    · refine (within ⟨0⟩ ⟨3⟩ (by decide)).mpr (.inl ⟨⟨_, rfl, by decide⟩, fun other lists => ?_⟩)
      exact Nat.le_of_lt_succ lists.index_lt_size
    · refine (declared ⟨0⟩ ⟨1⟩ (by decide)).mpr (.inl (declaresLast_iff.mpr ?_))
      exact Links.lastBelow_size_eq_some_iff.mp (by decide +kernel)
    · refine (owned ⟨0⟩ ⟨1⟩ (by decide)).mpr (.inl (takesLast_iff.mpr ?_))
      exact Links.lastBelow_size_eq_some_iff.mp (by decide +kernel)

end Workbench

end SafeDialect
