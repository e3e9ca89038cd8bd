/-
Units that are put together by hand are consistent at every point.

An operation names the ids that it is given, those inside its expressions too, and its product holds
the ids that it gives back. A workbench is an assembly together with all ids that its operations
have given so far. As long as every operation only uses ids from there, and asks for no parameter
past the last one, each of them answers, the unit stays consistent and the ids on the workbench lie
inside their tables.
-/
import SafeDialect.Proofs.Program.Assembly

namespace SafeDialect

-- ============================================================ ids

/-- An id, by the table that it points into. -/
structure Handle where
  table : Table
  index : Nat
  deriving DecidableEq

/-- Types, scopes and so on are all held by a table and a slot. -/
def QualifiedType.handle (t : QualifiedType) : Handle := ⟨.types, t.id.index⟩

def ScopeId.handle (id : ScopeId) : Handle := ⟨.scopes, id.index⟩

def RecordId.handle (id : RecordId) : Handle := ⟨.records, id.index⟩

def FunctionId.handle (id : FunctionId) : Handle := ⟨.functions, id.index⟩

def VariableId.handle (id : VariableId) : Handle := ⟨.vars, id.index⟩

def StmtId.handle (id : StmtId) : Handle := ⟨.statements, id.index⟩

/-- A captured variable is held, and nothing else of a capture is. -/
def CaptureKind.handles : CaptureKind → List Handle
  | byCopy id | byReference id => [id.handle]
  | thisPointer | thisCopy | array => []

/-- The ids that a node names itself, its parts apart. -/
def Node.handles : Node → List Handle
  | declRef (.variableRef id) => [id.handle]
  | declRef (.functionRef id) => [id.handle]
  | declRef (.fieldRef id _) => [id.handle]
  | freeCall callee _ | memberCall callee _ _ _ | operatorCall callee _ | construct callee _ =>
    callee.toList.map FunctionId.handle
  | lambda l => l.record.toList.map RecordId.handle ++ l.captures.flatMap (·.kind.handles)
  | nullPointer | integer _ | thisObject | member .. | unary .. | binary .. | conditional ..
  | cast .. | paren _ | defaultArgument _ | materializeTemporary _ | bindTemporary _
  | withCleanups _ | unsupported _ => []

/-- All ids inside an expression. -/
def Expr.handles (e : Expr) : List Handle :=
  e.nodes.flatMap fun n => n.type.handle :: n.node.handles

/-- A statement holds on to its children, to what it declares and to its expressions. -/
def StmtShape.handles (shape : StmtShape) : List Handle :=
  shape.children.map StmtId.handle ++ shape.declared.map VariableId.handle
    ++ shape.exprs.flatMap Expr.handles

/-- All ids lie inside their tables. -/
def TranslationUnit.HoldsAll (u : TranslationUnit) (handles : List Handle) : Prop :=
  ∀ h ∈ handles, u.Holds h.table h.index

namespace TranslationUnit

variable {u v : TranslationUnit}

/-- Nothing to hold. -/
@[simp]
theorem holdsAll_nil : u.HoldsAll [] := nofun

/-- Handles are held one by one. -/
@[simp]
theorem holdsAll_cons {h : Handle} {rest : List Handle} :
    u.HoldsAll (h :: rest) ↔ u.Holds h.table h.index ∧ u.HoldsAll rest :=
  List.forall_mem_cons

/-- And list by list. -/
@[simp]
theorem holdsAll_append {first rest : List Handle} :
    u.HoldsAll (first ++ rest) ↔ u.HoldsAll first ∧ u.HoldsAll rest :=
  List.forall_mem_append

@[simp]
theorem holdsAll_map {α : Type} {l : List α} {handle : α → Handle} :
    u.HoldsAll (l.map handle) ↔ ∀ x ∈ l, u.Holds (handle x).table (handle x).index :=
  List.forall_mem_map

@[simp]
theorem holdsAll_flatMap {α : Type} {l : List α} {handles : α → List Handle} :
    u.HoldsAll (l.flatMap handles) ↔ ∀ x ∈ l, u.HoldsAll (handles x) := by
  unfold HoldsAll
  simp only [List.mem_flatMap, forall_exists_index, and_imp]
  exact ⟨fun all x mem h inside => all h x mem inside, fun all h x mem inside => all x mem h inside⟩

/-- What was held is held by a unit that has grown. -/
theorem HoldsAll.grown {handles : List Handle} (all : u.HoldsAll handles) (grown : u.Grown v) :
    v.HoldsAll handles :=
  fun h mem => grown.holds (all h mem)

private theorem holdsAll_capture_iff {kind : CaptureKind} :
    u.HoldsAll kind.handles ↔ ∀ id, kind.captured? = some id → u.Holds .vars id.index := by
  cases kind <;> simp [CaptureKind.handles, CaptureKind.captured?, VariableId.handle]

/-- To hold all handles of a node is what it means for the node to fit. -/
private theorem holdsAll_node_iff {node : Node} : u.HoldsAll node.handles ↔ node.Fits u := by
  cases node with
  | declRef target =>
    cases target <;> simp [Node.handles, Node.Fits, VariableId.handle, FunctionId.handle,
      RecordId.handle]
  | lambda l =>
    simp [Node.handles, Node.Fits, RecordId.handle, holdsAll_capture_iff]
  | _ => simp [Node.handles, Node.Fits, FunctionId.handle]

/-- And so for an expression. -/
private theorem holdsAll_expr_iff {e : Expr} : u.HoldsAll e.handles ↔ e.Fits u := by
  simp only [Expr.handles, Expr.Fits, holdsAll_flatMap, holdsAll_cons, holdsAll_node_iff]
  rfl

end TranslationUnit

-- ============================================================ operations

/-- An operation of an assembly, with its arguments. -/
inductive Operation where
  | userLocation
  | systemLocation
  | namespacePath (path : String)
  | namespaceAttribute (id : ScopeId) (mark : Attribute)
  | recordScope (id : RecordId)
  | builtin (kind : Builtin)
  | int
  | void
  | pointerTo (pointee : QualifiedType)
  | referenceTo (referent : QualifiedType)
  | recordType (id : RecordId)
  | templateInstance (qualified : String) (args : List QualifiedType)
  | struct (scope : ScopeId) (name : String)
  | union (scope : ScopeId) (name : String)
  | systemStruct (scope : ScopeId) (name : String)
  | recordAttribute (id : RecordId) (mark : Attribute)
  | field (id : RecordId) (name : String) (type : QualifiedType) (hasInitializer : Bool)
  | base (id : RecordId) (type : QualifiedType)
  | method (id : RecordId) (name : String) (kind : FunctionKind)
  | function (name : String) (params : List (String × QualifiedType)) (ret : QualifiedType)
  | appendParams (f : FunctionId) (params : List (String × QualifiedType))
  | paramAt (f : FunctionId) (i : Nat)
  | setBody (f : FunctionId) (body : StmtId)
  | newVariable (owner : Option FunctionId) (name : String) (type : QualifiedType)
      (kind : VariableKind)
  | localVariable (f : FunctionId) (name : String) (type : QualifiedType)
  | globalVariable (name : String) (type : QualifiedType)
  | variableAttribute (id : VariableId) (mark : Attribute)
  | setInitializer (id : VariableId) (e : Expr)
  | expr (type : QualifiedType) (node : Node)
  | variableRef (id : VariableId)
  | functionRef (id : FunctionId)
  | thisObject (type : QualifiedType)
  | nullPointer
  | integer (value : Int)
  | member (object : Expr) (name : String) (type : QualifiedType) (isArrow : Bool)
  | assign (lhs rhs : Expr)
  | call (callee : FunctionId) (args : List Expr)
  | memberCall (object : Expr) (callee : FunctionId) (args : List Expr) (isArrow : Bool)
  | lambda (captures : List CaptureKind)
  | stmt (shape : StmtShape)
  | declareStmt (vars : List VariableId)
  | exprStmt (e : Expr)
  | returnStmt (value : Option Expr)
  | compound (items : List StmtId)

/-- What an operation gives back. -/
inductive Product where
  | nothing
  | location (location : Location)
  | position (index : Nat)
  | type (t : QualifiedType)
  | scope (id : ScopeId)
  | record (id : RecordId)
  | function (id : FunctionId)
  | vars (ids : List VariableId)
  | stmt (id : StmtId)
  | expr (e : Expr)

/-- The ids in what an operation gives back. -/
def Product.handles : Product → List Handle
  | nothing | location _ | position _ => []
  | type t => [t.handle]
  | scope id => [id.handle]
  | record id => [id.handle]
  | function id => [id.handle]
  | vars ids => ids.map VariableId.handle
  | stmt id => [id.handle]
  | expr e => e.handles

namespace Operation

/-- The ids that an operation is given. -/
def handles : Operation → List Handle
  | userLocation | systemLocation | namespacePath _ | builtin _ | int | void | nullPointer
  | integer _ => []
  | namespaceAttribute id _ => [id.handle]
  | recordScope id | recordType id | recordAttribute id _ | method id _ _ => [id.handle]
  | pointerTo t | referenceTo t | thisObject t | globalVariable _ t => [t.handle]
  | templateInstance _ args => args.map QualifiedType.handle
  | struct scope _ | union scope _ | systemStruct scope _ => [scope.handle]
  | field id _ t _ | base id t => [id.handle, t.handle]
  | function _ params ret => ret.handle :: params.map (·.2.handle)
  | appendParams f params => f.handle :: params.map (·.2.handle)
  | paramAt f _ | functionRef f => [f.handle]
  | setBody f body => [f.handle, body.handle]
  | newVariable owner _ t _ => t.handle :: owner.toList.map FunctionId.handle
  | localVariable f _ t => [t.handle, f.handle]
  | variableAttribute id _ | variableRef id => [id.handle]
  | setInitializer id e => id.handle :: e.handles
  | expr t node => t.handle :: node.handles ++ node.children.flatMap Expr.handles
  | member object _ t _ => t.handle :: object.handles
  | assign lhs rhs => lhs.handles ++ rhs.handles
  | call callee args => callee.handle :: args.flatMap Expr.handles
  | memberCall object callee args _ =>
    callee.handle :: object.handles ++ args.flatMap Expr.handles
  | lambda captures => captures.flatMap CaptureKind.handles
  | stmt shape => shape.handles
  | declareStmt vars => vars.map VariableId.handle
  | exprStmt e => e.handles
  | returnStmt value => value.toList.flatMap Expr.handles
  | compound items => items.map StmtId.handle

/-- Whether a parameter that is asked for exists. -/
def asksExisting (u : TranslationUnit) : Operation → Bool
  | paramAt f i =>
    match u.function f with
    | .ok decl => i < decl.params.length
    | .error _ => true
  | _ => true

/-- What an operation does to an assembly, and what it gives. -/
def run : Operation → Assemble Product
  | userLocation => .location <$> Assemble.userLocation
  | systemLocation => .location <$> Assemble.systemLocation
  | namespacePath path => .scope <$> Assemble.namespacePath path
  | namespaceAttribute id mark => (fun _ => .nothing) <$> Assemble.namespaceAttribute id mark
  | recordScope id => .scope <$> Assemble.recordScope id
  | builtin kind => .type <$> Assemble.builtin kind
  | int => .type <$> Assemble.int
  | void => .type <$> Assemble.void
  | pointerTo t => .type <$> Assemble.pointerTo t
  | referenceTo t => .type <$> Assemble.referenceTo t
  | recordType id => .type <$> Assemble.recordType id
  | templateInstance qualified args => .type <$> Assemble.templateInstance qualified args
  | struct scope name => .record <$> Assemble.struct scope name
  | union scope name => .record <$> Assemble.union scope name
  | systemStruct scope name => .record <$> Assemble.systemStruct scope name
  | recordAttribute id mark => (fun _ => .nothing) <$> Assemble.recordAttribute id mark
  | field id name t hasInitializer => .position <$> Assemble.field id name t hasInitializer
  | base id t => (fun _ => .nothing) <$> Assemble.base id t
  | method id name kind => .function <$> Assemble.method id name kind
  | function name params ret => .function <$> Assemble.function name params ret
  | appendParams f params => .vars <$> Assemble.appendParams f params
  | paramAt f i => (fun id => .vars [id]) <$> Assemble.paramAt f i
  | setBody f body => (fun _ => .nothing) <$> Assemble.setBody f body
  | newVariable owner name t kind =>
    (fun id => .vars [id]) <$> Assemble.newVariable owner name t kind
  | localVariable f name t => (fun id => .vars [id]) <$> Assemble.localVariable f name t
  | globalVariable name t => (fun id => .vars [id]) <$> Assemble.globalVariable name t
  | variableAttribute id mark => (fun _ => .nothing) <$> Assemble.variableAttribute id mark
  | setInitializer id e => (fun _ => .nothing) <$> Assemble.setInitializer id e
  | expr t node => .expr <$> Assemble.expr t node
  | variableRef id => .expr <$> Assemble.variableRef id
  | functionRef id => .expr <$> Assemble.functionRef id
  | thisObject t => .expr <$> Assemble.thisObject t
  | nullPointer => .expr <$> Assemble.nullPointer
  | integer value => .expr <$> Assemble.integer value
  | member object name t isArrow => .expr <$> Assemble.member object name t isArrow
  | assign lhs rhs => .expr <$> Assemble.assign lhs rhs
  | call callee args => .expr <$> Assemble.call callee args
  | memberCall object callee args isArrow =>
    .expr <$> Assemble.memberCall object callee args isArrow
  | lambda captures => .expr <$> Assemble.lambda captures
  | stmt shape => .stmt <$> Assemble.stmt shape
  | declareStmt vars => .stmt <$> Assemble.declareStmt vars
  | exprStmt e => .stmt <$> Assemble.exprStmt e
  | returnStmt value => .stmt <$> Assemble.returnStmt value
  | compound items => .stmt <$> Assemble.compound items

end Operation

-- ============================================================ what one operation does

namespace Builds

open TranslationUnit

variable {α : Type} {a : Assembly} {step : Assemble α}

/-- A step that gives back one id. -/
theorem gives {make : α → Product} {handle : α → Handle}
    (only : ∀ x, (make x).handles = [handle x])
    (h : Builds a step fun v x => v.Holds (handle x).table (handle x).index) :
    Builds a (make <$> step) fun v product => v.HoldsAll product.handles := by
  refine .map (.mono h fun v x _ inside => ?_)
  rw [only]
  exact holdsAll_cons.mpr ⟨inside, holdsAll_nil⟩

/-- An operation that gives nothing to hold on to. -/
private theorem givesNone {make : α → Product} (none : ∀ x, (make x).handles = [])
    {post : TranslationUnit → α → Prop} (h : Builds a step post) :
    Builds a (make <$> step) fun v product => v.HoldsAll product.handles := by
  refine .map (.mono h fun v x _ _ => ?_)
  rw [none]
  exact holdsAll_nil

/-- An operation that gives an expression, whose handles are those of its parts. -/
private theorem givesExpr {step : Assemble Expr} (h : Builds a step fun v e => e.Fits v) :
    Builds a (Product.expr <$> step) fun v product => v.HoldsAll product.handles :=
  .map (.mono h fun _ _ _ fits => holdsAll_expr_iff.mpr fits)

end Builds

namespace Operation

open TranslationUnit Assemble

variable {a : Assembly}

/-- An operation whose ids lie inside their tables answers, keeps the unit consistent, and gives
back ids that lie inside their tables. -/
theorem run_builds {op : Operation} (inside : a.unit.HoldsAll op.handles)
    (exists_ : op.asksExisting a.unit = true) :
    Builds a op.run fun v product => v.HoldsAll product.handles := by
  cases op with
  | userLocation => exact .givesNone (fun _ => rfl) userLocation_builds
  | systemLocation => exact .givesNone (fun _ => rfl) systemLocation_builds
  | namespacePath path => exact .gives (fun _ => rfl) namespacePath_builds
  | namespaceAttribute id mark =>
    exact .givesNone (fun _ => rfl) (namespaceAttribute_builds (holdsAll_cons.mp inside).1)
  | recordScope id =>
    exact .gives (fun _ => rfl) (recordScope_builds (holdsAll_cons.mp inside).1)
  | builtin kind => exact .gives (fun _ => rfl) builtin_builds
  | int => exact .gives (fun _ => rfl) builtin_builds
  | void => exact .gives (fun _ => rfl) builtin_builds
  | pointerTo t => exact .gives (fun _ => rfl) (pointerTo_builds (holdsAll_cons.mp inside).1)
  | referenceTo t => exact .gives (fun _ => rfl) (referenceTo_builds (holdsAll_cons.mp inside).1)
  | recordType id => exact .gives (fun _ => rfl) (recordType_builds (holdsAll_cons.mp inside).1)
  | templateInstance qualified args =>
    exact .gives (fun _ => rfl) (templateInstance_builds (holdsAll_map.mp inside))
  | struct scope name => exact .gives (fun _ => rfl) (struct_builds (holdsAll_cons.mp inside).1)
  | union scope name => exact .gives (fun _ => rfl) (union_builds (holdsAll_cons.mp inside).1)
  | systemStruct scope name =>
    exact .gives (fun _ => rfl) (systemStruct_builds (holdsAll_cons.mp inside).1)
  | recordAttribute id mark =>
    exact .givesNone (fun _ => rfl) (recordAttribute_builds (holdsAll_cons.mp inside).1)
  | field id name t hasInitializer =>
    obtain ⟨insideId, insideType, -⟩ := by simpa only [handles, holdsAll_cons] using inside
    exact .givesNone (fun _ => rfl) (field_builds insideId insideType)
  | base id t =>
    obtain ⟨insideId, insideType, -⟩ := by simpa only [handles, holdsAll_cons] using inside
    exact .givesNone (fun _ => rfl) (base_builds insideId insideType)
  | method id name kind => exact .gives (fun _ => rfl) (method_builds (holdsAll_cons.mp inside).1)
  | function name params ret =>
    obtain ⟨insideRet, insideParams⟩ := holdsAll_cons.mp inside
    exact .gives (fun _ => rfl) (function_builds (holdsAll_map.mp insideParams) insideRet)
  | appendParams f params =>
    obtain ⟨insideF, insideParams⟩ := holdsAll_cons.mp inside
    refine .map (.mono (appendParams_builds insideF (holdsAll_map.mp insideParams)) ?_)
    exact fun v ids _ all => holdsAll_map.mpr all
  -- the one operation that may ask for what is not there, unless it is known to be
  | paramAt f i =>
    have insideF := (holdsAll_cons.mp inside).1
    refine .of_consistent fun c => ?_
    obtain ⟨decl, look, -⟩ := (c.function_ends insideF).answer
    simp only [asksExisting, look, decide_eq_true_eq] at exists_
    exact .gives (fun _ => rfl) (paramAt_builds look exists_)
  | setBody f body =>
    obtain ⟨insideF, insideBody, -⟩ := by simpa only [handles, holdsAll_cons] using inside
    exact .givesNone (fun _ => rfl) (setBody_builds insideF insideBody)
  | newVariable owner name t kind =>
    obtain ⟨insideType, insideOwner⟩ := holdsAll_cons.mp inside
    refine .gives (fun _ => rfl) (newVariable_builds (fun f known => ?_) insideType)
    exact holdsAll_map.mp insideOwner f (Option.mem_toList.mpr known)
  | localVariable f name t =>
    obtain ⟨insideType, insideF, -⟩ := by simpa only [handles, holdsAll_cons] using inside
    refine .gives (fun _ => rfl) (newVariable_builds (fun f' same => ?_) insideType)
    cases same
    exact insideF
  | globalVariable name t =>
    exact .gives (fun _ => rfl) (newVariable_builds nofun (holdsAll_cons.mp inside).1)
  | variableAttribute id mark =>
    exact .givesNone (fun _ => rfl) (variableAttribute_builds (holdsAll_cons.mp inside).1)
  | setInitializer id e =>
    obtain ⟨insideId, insideE⟩ := holdsAll_cons.mp inside
    exact .givesNone (fun _ => rfl)
      (setInitializer_builds insideId (holdsAll_expr_iff.mp insideE))
  | expr t node =>
    simp only [handles, holdsAll_append, holdsAll_cons, holdsAll_flatMap, holdsAll_node_iff,
      holdsAll_expr_iff] at inside
    obtain ⟨⟨insideType, fits⟩, parts⟩ := inside
    exact .givesExpr (expr_builds insideType fits parts)
  | variableRef id => exact .givesExpr (variableRef_builds (holdsAll_cons.mp inside).1)
  | functionRef id => exact .givesExpr (functionRef_builds (holdsAll_cons.mp inside).1)
  | thisObject t => exact .givesExpr (expr_builds (holdsAll_cons.mp inside).1 trivial nofun)
  | nullPointer => exact .givesExpr (leaf_builds (fun _ => trivial) rfl)
  | integer value => exact .givesExpr (leaf_builds (fun _ => trivial) rfl)
  | member base name t isArrow =>
    obtain ⟨insideType, insideBase⟩ := holdsAll_cons.mp inside
    exact .givesExpr (member_builds (holdsAll_expr_iff.mp insideBase) insideType)
  | assign lhs rhs =>
    obtain ⟨left, right⟩ := holdsAll_append.mp inside
    exact .givesExpr (assign_builds (holdsAll_expr_iff.mp left) (holdsAll_expr_iff.mp right))
  | call callee args =>
    simp only [handles, holdsAll_cons, holdsAll_flatMap, holdsAll_expr_iff] at inside
    exact .givesExpr (call_builds inside.1 inside.2)
  | memberCall base callee args isArrow =>
    simp only [handles, List.cons_append, holdsAll_cons, holdsAll_append, holdsAll_flatMap,
      holdsAll_expr_iff] at inside
    obtain ⟨insideCallee, fitsBase, fits⟩ := inside
    exact .givesExpr (memberCall_builds fitsBase insideCallee fits)
  | lambda captures =>
    simp only [handles, holdsAll_flatMap, holdsAll_capture_iff] at inside
    exact .givesExpr (lambda_builds inside)
  | stmt shape =>
    simp only [handles, StmtShape.handles, holdsAll_append, holdsAll_map, holdsAll_flatMap,
      holdsAll_expr_iff] at inside
    obtain ⟨⟨children, declared⟩, exprs⟩ := inside
    exact .gives (fun _ => rfl) (stmt_builds children declared exprs)
  | declareStmt vars =>
    exact .gives (fun _ => rfl) (stmt_builds nofun (holdsAll_map.mp inside) nofun)
  | exprStmt e =>
    have fits := holdsAll_expr_iff.mp inside
    exact .gives (fun _ => rfl)
      (stmt_builds nofun nofun fun _ mem => List.mem_singleton.mp mem ▸ fits)
  | returnStmt value =>
    simp only [handles, holdsAll_flatMap, holdsAll_expr_iff] at inside
    exact .gives (fun _ => rfl) (stmt_builds nofun nofun inside)
  | compound items =>
    exact .gives (fun _ => rfl) (stmt_builds (holdsAll_map.mp inside) nofun nofun)

end Operation

-- ============================================================ one operation after the other

/-- An assembly, and the ids that its operations have given so far. -/
structure Workbench where
  assembly : Assembly
  given : List Handle

namespace Workbench

/-- The assembly of an empty unit, before any operation. -/
def start : Workbench := ⟨.start, []⟩

/-- The workbench after an operation. -/
def perform (w : Workbench) (op : Operation) : Result Workbench := do
  let (product, assembly) ← op.run.run w.assembly
  return ⟨assembly, w.given ++ product.handles⟩

/-- The workbenches before, between and after operations. -/
def performAll : Workbench → List Operation → Result (List Workbench)
  | w, [] => .ok [w]
  | w, op :: rest => do
    let next ← w.perform op
    return w :: (← next.performAll rest)

/-- The ids that an operation uses come from earlier operations, and a parameter that it asks for
exists. -/
structure Allows (w : Workbench) (op : Operation) : Prop where
  given : ∀ h ∈ op.handles, h ∈ w.given
  exists_ : op.asksExisting w.assembly.unit = true

instance (w : Workbench) (op : Operation) : Decidable (w.Allows op) :=
  decidable_of_iff ((∀ h ∈ op.handles, h ∈ w.given) ∧ op.asksExisting w.assembly.unit = true)
    ⟨fun h => ⟨h.1, h.2⟩, fun h => ⟨h.given, h.exists_⟩⟩

/-- Each operation is allowed when its turn comes. -/
def AllowsAll : Workbench → List Operation → Prop
  | _, [] => True
  | w, op :: rest => w.Allows op ∧ ∀ next, w.perform op = .ok next → next.AllowsAll rest

instance decidableAllowsAll : (w : Workbench) → (ops : List Operation) → Decidable (w.AllowsAll ops)
  | _, [] => isTrue trivial
  | w, op :: rest =>
    match ran : w.perform op with
    | .error _ => decidable_of_iff (w.Allows op) <| by simp [AllowsAll, ran]
    | .ok next =>
      have := decidableAllowsAll next rest
      decidable_of_iff (w.Allows op ∧ next.AllowsAll rest) <| by simp [AllowsAll, ran]

/-- The unit is consistent, and the ids given lie inside their tables. -/
structure Sound (w : Workbench) : Prop where
  consistent : w.assembly.unit.Consistent
  inside : w.assembly.unit.HoldsAll w.given

variable {w : Workbench}

/-- Nothing has been handed out at the start, and the empty unit is consistent. -/
theorem start_sound : start.Sound :=
  ⟨TranslationUnit.inconsistency?_eq_none_iff.mp (by decide), nofun⟩

/-- An operation that is allowed answers, and what is sound stays sound. -/
theorem Sound.perform (sound : w.Sound) {op : Operation} (allowed : w.Allows op) :
    ∃ next, w.perform op = .ok next ∧ next.Sound := by
  have inside : w.assembly.unit.HoldsAll op.handles :=
    fun h mem => sound.inside h (allowed.given h mem)
  obtain ⟨product, assembly, ran, extended, gives⟩ :=
    (Operation.run_builds inside allowed.exists_ sound.consistent).answer
  refine ⟨⟨assembly, w.given ++ product.handles⟩, ?_, extended.consistent, ?_⟩
  · unfold Workbench.perform
    rw [show op.run.run w.assembly = _ from ran]
    rfl
  · exact TranslationUnit.holdsAll_append.mpr ⟨sound.inside.grown extended.grown, gives⟩

/-- So does every sequence of operations that are allowed one after the other. -/
theorem Sound.performAll (sound : w.Sound) {ops : List Operation} (allowed : w.AllowsAll ops) :
    ∃ points, w.performAll ops = .ok points ∧ points.length = ops.length + 1
      ∧ ∀ p ∈ points, p.Sound := by
  induction ops generalizing w with
  | nil => exact ⟨[w], rfl, rfl, fun p mem => List.mem_singleton.mp mem ▸ sound⟩
  | cons op rest ih =>
    obtain ⟨next, ran, soundNext⟩ := sound.perform allowed.1
    obtain ⟨points, all, length, each⟩ := ih soundNext (allowed.2 next ran)
    refine ⟨w :: points, ?_, congrArg (· + 1) length, fun p mem => ?_⟩
    · unfold Workbench.performAll
      rw [ran, ok_bind, all]
      rfl
    · rcases List.mem_cons.mp mem with rfl | mem
      · exact sound
      · exact each p mem

/-- Operations that only use ids from earlier operations, and ask for no parameter past the last
one, all answer, and the unit is consistent before, between and after them. -/
theorem consistent_throughout {ops : List Operation} (allowed : start.AllowsAll ops) :
    ∃ points, start.performAll ops = .ok points ∧ points.length = ops.length + 1
      ∧ ∀ p ∈ points, p.assembly.unit.inconsistency? = none := by
  obtain ⟨points, all, length, each⟩ := start_sound.performAll allowed
  refine ⟨points, all, length, fun p mem => ?_⟩
  exact TranslationUnit.inconsistency?_eq_none_iff.mpr (each p mem).consistent

/-- A list of nodes with a method that gives back its parameter:

    namespace app { struct Node { Node* next; Node* run(Node* n) { return n; } }; }
-/
def nodeSteps : List Operation :=
  let node : QualifiedType := ⟨⟨0⟩, false⟩
  let nodePtr : QualifiedType := ⟨⟨1⟩, false⟩
  [.namespacePath "app", .struct ⟨1⟩ "Node", .recordType ⟨0⟩, .pointerTo node,
    .field ⟨0⟩ "next" nodePtr false, .method ⟨0⟩ "run" .method, .appendParams ⟨0⟩ [("n", nodePtr)],
    .paramAt ⟨0⟩ 0, .variableRef ⟨0⟩,
    .returnStmt (some (.mk .unknown nodePtr (.declRef (.variableRef ⟨0⟩)))), .compound [⟨0⟩],
    .setBody ⟨0⟩ ⟨1⟩]

/-- Thirteen operations that assemble a node, each of them allowed when its turn comes. -/
theorem nodeSteps_consistent_throughout :
    start.AllowsAll nodeSteps ∧ ∃ points, start.performAll nodeSteps = .ok points
      ∧ points.length = 13 ∧ ∀ p ∈ points, p.assembly.unit.inconsistency? = none := by
  have allowed : start.AllowsAll nodeSteps := by decide +kernel
  exact ⟨allowed, consistent_throughout allowed⟩

end Workbench

end SafeDialect
