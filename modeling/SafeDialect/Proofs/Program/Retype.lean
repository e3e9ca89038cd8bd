/-
Units with other types in the place of theirs.

`retype κ` puts `κ t` wherever a unit mentions a type `t`: in the layers of types, in template
arguments, fields, bases and results, at variables, and at every node of an expression. Nothing else
changes, so a look-up finds the entry that was there, retyped, and names, scopes, bodies and
locations are what they were.
-/
import SafeDialect.Proofs.Program.Lookup
import SafeDialect.Setting

namespace SafeDialect

-- ============================================================ retyping

section Retyping

variable (κ : QualifiedType → QualifiedType)

/-- A layer around other types of the same kind. -/
def TypeShape.retype : TypeShape → TypeShape
  | pointer t => pointer (κ t)
  | lvalueReference t => lvalueReference (κ t)
  | rvalueReference t => rvalueReference (κ t)
  | array t size => array (κ t) size
  | synonym name t => synonym name (κ t)
  | function ret params => function (κ ret) (params.map κ)
  | builtin kind => builtin kind
  | enum name => enum name
  | record id => record id
  | templateParam name depth index => templateParam name depth index
  | dependent spelling => dependent spelling

/-- Only a type argument mentions a type. -/
def TemplateArg.retype : TemplateArg → TemplateArg
  | type t => type (κ t)
  | integral value => integral value
  | other text => other text

/-- A field of another type. -/
def Field.retype (f : Field) : Field := { f with type := κ f.type }

/-- A base of another type. -/
def Base.retype (b : Base) : Base := { b with type := κ b.type }

/-- A definition with all of its fields and bases retyped; methods are listed by id and stay. -/
def RecordDefinition.retype (d : RecordDefinition) : RecordDefinition where
  fields := d.fields.map (·.retype κ)
  bases := d.bases.map (·.retype κ)
  methods := d.methods

/-- A record with its definition, if it has one, and its template arguments retyped. -/
def RecordDecl.retype (r : RecordDecl) : RecordDecl :=
  { r with
    definition := r.definition.map (·.retype κ)
    templateArgs := r.templateArgs.map (·.retype κ) }

/-- A function with another result type; parameters are variables, and are retyped there. -/
def FunctionDecl.retype (f : FunctionDecl) : FunctionDecl := { f with ret := κ f.ret }

mutual

/-- An expression of another type, with all of its parts retyped. -/
def Expr.retype : Expr → Expr
  | .mk location type node => .mk location (κ type) node.retype

/-- The parts of a node are retyped. A node mentions no type of its own. -/
def Node.retype : Node → Node
  | .freeCall callee args => .freeCall callee (Expr.retypeList args)
  | .memberCall callee base isArrow args =>
    .memberCall callee base.retype isArrow (Expr.retypeList args)
  | .operatorCall callee args => .operatorCall callee (Expr.retypeList args)
  | .member base name isArrow => .member base.retype name isArrow
  | .unary op operand => .unary op operand.retype
  | .binary op lhs rhs => .binary op lhs.retype rhs.retype
  | .conditional condition thenExpr elseExpr =>
    .conditional condition.retype thenExpr.retype elseExpr.retype
  | .cast kind operand => .cast kind operand.retype
  | .paren inner => .paren inner.retype
  | .construct constructor args => .construct constructor (Expr.retypeList args)
  | .defaultArgument inner => .defaultArgument inner.retype
  | .materializeTemporary inner => .materializeTemporary inner.retype
  | .bindTemporary inner => .bindTemporary inner.retype
  | .withCleanups inner => .withCleanups inner.retype
  | .nullPointer => .nullPointer
  | .integer value => .integer value
  | .thisObject => .thisObject
  | .declRef target => .declRef target
  | .lambda l => .lambda l
  | .unsupported name => .unsupported name

/-- Written out for lists, so that the recursion is over the expression. -/
def Expr.retypeList : List Expr → List Expr
  | [] => []
  | e :: rest => e.retype :: Expr.retypeList rest

end

/-- A variable of another type, with its initializer retyped. -/
def VariableDecl.retype (v : VariableDecl) : VariableDecl :=
  { v with
    type := κ v.type
    init := v.init.map (·.retype κ) }

/-- Only the expressions of a statement mention types. The statements and variables that it lists
are ids. -/
def StmtShape.retype : StmtShape → StmtShape
  | compound items => compound items
  | declare vars => declare vars
  | evaluate expr => evaluate (expr.retype κ)
  | giveBack value => giveBack (value.map (·.retype κ))
  | branch condition thenBranch elseBranch => branch (condition.retype κ) thenBranch elseBranch
  | whileLoop condition body => whileLoop (condition.retype κ) body
  | forLoop first condition increment body =>
    forLoop first (condition.map (·.retype κ)) (increment.map (·.retype κ)) body
  | null => null

/-- A statement with its expressions retyped, under the same parent. -/
def Stmt.retype (s : Stmt) : Stmt := { s with shape := s.shape.retype κ }

/-- The same slots with their layers retyped. -/
def TypeTable.retype (t : TypeTable) : TypeTable := ⟨t.shapes.map (·.retype κ)⟩

/-- The unit with `κ t` wherever it mentions `t`. Files and scopes mention no types. -/
def TranslationUnit.retype (u : TranslationUnit) : TranslationUnit where
  files := u.files
  types := u.types.retype κ
  scopes := u.scopes
  records := u.records.map (·.retype κ)
  functions := u.functions.map (·.retype κ)
  vars := u.vars.map (·.retype κ)
  statements := u.statements.map (·.retype κ)

end Retyping

variable {κ : QualifiedType → QualifiedType}

/-- Looking up an entry that is changed everywhere is changing the entry that is looked up. -/
private theorem entry_map {α β : Type} {table : Table} {entries : Array α} {index : Nat}
    {f : α → β} :
    entry table (entries.map f) index = (entry table entries index).map f := by
  unfold entry
  rw [Array.getElem?_map]
  cases entries[index]? <;> rfl

/-- Only a value is a value under a map. -/
theorem map_eq_ok {α β : Type} {x : Result α} {g : α → β} {b : β} :
    x.map g = .ok b ↔ ∃ a, x = .ok a ∧ g a = b := by
  cases x with
  | error fault => simp [Except.map]
  | ok a => simp [Except.map]

/-- What follows on a look-up whose result has been changed follows on the look-up itself. -/
theorem map_bind_result {α β γ : Type} {x : Result α} {g : α → β} {f : β → Result γ} :
    (x.map g >>= f) = x >>= fun a => f (g a) := by
  cases x <;> rfl

/-- What is done with a value in the end can be done at once. -/
theorem bind_pure_map_result {α β γ : Type} {x : Result α} {g : α → β} {f : β → γ} :
    (x >>= fun a => pure (g a)).map f = x >>= fun a => pure (f (g a)) := by
  cases x <;> rfl

private theorem mapM_map_result {α β γ : Type} {f : α → Result β} {f' : α → Result γ} {g : β → γ}
    {l : List α} (each : ∀ a ∈ l, f' a = (f a).map g) :
    l.mapM f' = (l.mapM f).map (List.map g) := by
  induction l with
  | nil => rfl
  | cons head tail ih =>
    rw [List.mapM_cons, List.mapM_cons, each head List.mem_cons_self,
      ih fun a mem => each a (List.mem_cons_of_mem _ mem)]
    cases f head with
    | error fault => rfl
    | ok b => cases tail.mapM f <;> rfl

/-- Asking something of retyped entries is asking it of the entries, if the answer does not depend
on types. -/
theorem anyM_map_result {α β : Type} {f : α → Result Bool} {f' : β → Result Bool} {g : α → β}
    (same : ∀ a, f' (g a) = f a) (l : List α) : (l.map g).anyM f' = l.anyM f := by
  induction l with
  | nil => rfl
  | cons head tail ih => rw [List.map_cons, List.anyM, List.anyM, same, ih]

-- ============================================================ layers and records

namespace TypeShape

variable {shape : TypeShape}

/-- The kind of a layer does not depend on what it is around. -/
@[simp]
theorem isSynonym_retype : (shape.retype κ).isSynonym = shape.isSynonym := by cases shape <;> rfl

@[simp]
theorem isPointer_retype : (shape.retype κ).isPointer = shape.isPointer := by cases shape <;> rfl

@[simp]
theorem isReference_retype : (shape.retype κ).isReference = shape.isReference := by
  cases shape <;> rfl

@[simp]
theorem isRecord_retype : (shape.retype κ).isRecord = shape.isRecord := by cases shape <;> rfl

@[simp]
theorem isScalar_retype : (shape.retype κ).isScalar = shape.isScalar := by cases shape <;> rfl

/-- What a reference refers to is retyped like everything else. -/
@[simp]
theorem referent?_retype : (shape.retype κ).referent? = shape.referent?.map κ := by
  cases shape <;> rfl

/-- So is what a pointer points to. -/
@[simp]
theorem pointee?_retype : (shape.retype κ).pointee? = shape.pointee?.map κ := by
  cases shape <;> rfl

/-- The components of a layer are where it mentions types, so exactly these change. -/
theorem components_retype : (shape.retype κ).components = shape.components.map κ := by
  cases shape <;> rfl

end TypeShape

namespace RecordDecl

variable {r : RecordDecl} {a : Attribute}

/-- Whether a record is defined, and what its methods are, is no matter of types. -/
@[simp]
theorem isDefined_retype : (r.retype κ).isDefined = r.isDefined := Option.isSome_map

/-- Fields stay in their places. -/
@[simp]
theorem fields_retype : (r.retype κ).fields = r.fields.map (·.retype κ) := by
  unfold fields members retype
  cases r.definition <;> rfl

/-- Bases stay in theirs. -/
@[simp]
theorem bases_retype : (r.retype κ).bases = r.bases.map (·.retype κ) := by
  unfold bases members retype
  cases r.definition <;> rfl

@[simp]
theorem methods_retype : (r.retype κ).methods = r.methods := by
  unfold methods members retype
  cases r.definition <;> rfl

end RecordDecl

/-- Whether a variable has an initializer is no matter of types. -/
theorem VariableDecl.isNone_init_retype (v : VariableDecl) :
    (v.retype κ).init.isNone = v.init.isNone :=
  Option.isNone_map

-- ============================================================ expressions

namespace Expr

/-- The written-out recursion retypes each expression of the list. -/
theorem retypeList_eq_map (l : List Expr) : retypeList κ l = l.map (·.retype κ) := by
  induction l with
  | nil => simp only [retypeList, List.map_nil]
  | cons head tail ih => simp only [retypeList, List.map_cons, ih]

/-- Expressions stay where they are. -/
@[simp]
theorem location_retype (e : Expr) : (e.retype κ).location = e.location := by
  cases e
  simp only [retype, location]

/-- The type of an expression is one that the unit mentions. -/
@[simp]
theorem type_retype (e : Expr) : (e.retype κ).type = κ e.type := by
  cases e
  simp only [retype, type]

/-- The node of a retyped expression is the retyped node. -/
@[simp]
theorem node_retype (e : Expr) : (e.retype κ).node = e.node.retype κ := by
  cases e
  simp only [retype, node]

private theorem nodesOfList_retype {l : List Expr}
    (each : ∀ e ∈ l, (e.retype κ).nodes = e.nodes.map (·.retype κ)) :
    nodesOfList (l.map (·.retype κ)) = (nodesOfList l).map (·.retype κ) := by
  induction l with
  | nil => simp only [List.map_nil, nodesOfList]
  | cons head tail ih =>
    simp only [List.map_cons, nodesOfList, List.map_append]
    rw [each head List.mem_cons_self, ih fun e mem => each e (List.mem_cons_of_mem _ mem)]

/-- Retyping keeps the nodes of an expression and their order. -/
private theorem nodes_retype (e : Expr) : (e.retype κ).nodes = e.nodes.map (·.retype κ) := by
  induction e using induction_on_parts with
  | step e ih =>
    obtain ⟨location, type, node⟩ := e
    have below : (node.retype κ).descendants = node.descendants.map (·.retype κ) := by
      cases node with
      | freeCall callee args | operatorCall callee args | construct callee args =>
        simp only [Node.retype, Node.descendants, retypeList_eq_map]
        exact nodesOfList_retype ih
      | memberCall callee base isArrow args =>
        simp only [Node.retype, Node.descendants, retypeList_eq_map, List.map_append]
        rw [ih base List.mem_cons_self,
          nodesOfList_retype fun a mem => ih a (List.mem_cons_of_mem _ mem)]
      | member inner | unary _ inner | cast _ inner | paren inner | defaultArgument inner
      | materializeTemporary inner | bindTemporary inner | withCleanups inner =>
        simp only [Node.retype, Node.descendants]
        exact ih inner List.mem_cons_self
      | binary op lhs rhs =>
        simp only [Node.retype, Node.descendants, List.map_append]
        rw [ih lhs (by simp [node, Node.children]), ih rhs (by simp [node, Node.children])]
      | conditional condition thenExpr elseExpr =>
        simp only [Node.retype, Node.descendants, List.map_append]
        rw [ih condition (by simp [node, Node.children]),
          ih thenExpr (by simp [node, Node.children]), ih elseExpr (by simp [node, Node.children])]
      | _ => simp only [Node.retype, Node.descendants, List.map_nil]
    simp only [retype, nodes, List.map_cons, below]

/-- Wrappers are told by the node and not by its type. -/
theorem unwrapped_retype (e : Expr) : (e.retype κ).unwrapped = e.unwrapped.retype κ := by
  induction e using induction_on_parts with
  | step e ih =>
    obtain ⟨location, type, node⟩ := e
    cases node with
    | paren inner | withCleanups inner | materializeTemporary inner =>
      simp only [retype, Node.retype, unwrapped, Node.unwrapped]
      exact ih inner List.mem_cons_self
    | cast kind operand =>
      cases kind with
      | implicit =>
        simp only [retype, Node.retype, unwrapped, Node.unwrapped]
        exact ih operand List.mem_cons_self
      | _ => simp only [retype, Node.retype, unwrapped, Node.unwrapped]
    | _ => simp only [retype, Node.retype, unwrapped, Node.unwrapped]

/-- So are temporaries. -/
theorem withoutTemporaries_retype (e : Expr) :
    (e.retype κ).withoutTemporaries = e.withoutTemporaries.retype κ := by
  induction e using induction_on_parts with
  | step e ih =>
    obtain ⟨location, type, node⟩ := e
    cases node with
    | bindTemporary inner | withCleanups inner | materializeTemporary inner =>
      simp only [retype, Node.retype, withoutTemporaries, Node.withoutTemporaries]
      exact ih inner List.mem_cons_self
    | cast kind operand =>
      cases kind with
      | implicit =>
        simp only [retype, Node.retype, withoutTemporaries, Node.withoutTemporaries]
        exact ih operand List.mem_cons_self
      | _ => simp only [retype, Node.retype, withoutTemporaries, Node.withoutTemporaries]
    | construct callee args =>
      cases args with
      | nil =>
        simp only [retype, Node.retype, retypeList, withoutTemporaries, Node.withoutTemporaries]
      | cons first rest =>
        simp only [retype, Node.retype, retypeList, withoutTemporaries, Node.withoutTemporaries]
        exact ih first List.mem_cons_self
    | _ => simp only [retype, Node.retype, withoutTemporaries, Node.withoutTemporaries]

end Expr

-- ============================================================ statements

namespace Stmt

variable {s : Stmt}

/-- The statements that a statement lists are the same. -/
@[simp]
theorem children_retype : (s.retype κ).children = s.children := by
  unfold children retype
  cases s.shape <;> rfl

/-- So are the variables that it declares. -/
@[simp]
theorem declared_retype : (s.retype κ).declared = s.declared := by
  unfold declared retype
  cases s.shape <;> rfl

/-- Its own expressions are retyped. -/
@[simp]
theorem exprs_retype : (s.retype κ).exprs = s.exprs.map (·.retype κ) := by
  unfold exprs retype
  cases s.shape with
  | giveBack value => cases value <;> rfl
  | forLoop first condition increment body => cases condition <;> cases increment <;> rfl
  | _ => rfl

end Stmt

-- ============================================================ look-ups

namespace TranslationUnit

variable {u : TranslationUnit}

/-- Retyping neither makes nor drops slots. -/
theorem size_retype : (u.retype κ).types.size = u.types.size := Array.size_map

/-- A look-up finds the entry that was there, retyped, or fails as it did. -/
theorem shape_retype (id : TypeId) :
    (u.retype κ).types.shape id = (u.types.shape id).map (·.retype κ) :=
  entry_map

/-- The same of records. -/
theorem record_retype (id : RecordId) :
    (u.retype κ).record id = (u.record id).map (·.retype κ) :=
  entry_map

/-- The same of functions. -/
theorem function_retype (id : FunctionId) :
    (u.retype κ).function id = (u.function id).map (·.retype κ) :=
  entry_map

/-- The same of variables. -/
theorem variableDecl_retype (id : VariableId) :
    (u.retype κ).variableDecl id = (u.variableDecl id).map (·.retype κ) :=
  entry_map

/-- The same of statements. -/
theorem statement_retype (id : StmtId) :
    (u.retype κ).statement id = (u.statement id).map (·.retype κ) :=
  entry_map

/-- The statement around another one stays around it. -/
theorem parentStmt_retype (id : StmtId) : (u.retype κ).parentStmt id = u.parentStmt id := by
  unfold parentStmt
  rw [statement_retype, map_bind_result]
  rfl

/-- Retyping neither makes nor drops entries, so the ids are the same. -/
theorem recordIds_retype : (u.retype κ).recordIds = u.recordIds := by
  unfold recordIds retype
  rw [Array.size_map]

theorem functionIds_retype : (u.retype κ).functionIds = u.functionIds := by
  unfold functionIds retype
  rw [Array.size_map]

theorem variableIds_retype : (u.retype κ).variableIds = u.variableIds := by
  unfold variableIds retype
  rw [Array.size_map]

-- ============================================================ names

/-- Names are made of scopes, which mention no types. -/
private theorem qualifiedName_retype (id : ScopeId) (name : String) :
    (u.retype κ).qualifiedName id name = u.qualifiedName id name := by
  unfold qualifiedName qualifier path
  delta pathFrom
  rfl

theorem recordName_retype (id : RecordId) : (u.retype κ).recordName id = u.recordName id := by
  unfold recordName
  rw [record_retype, map_bind_result]
  exact bind_congr fun r => qualifiedName_retype r.scope r.name

theorem functionName_retype (id : FunctionId) :
    (u.retype κ).functionName id = u.functionName id := by
  unfold functionName
  rw [function_retype, map_bind_result]
  exact bind_congr fun f => qualifiedName_retype f.scope f.name

/-- Neither the scopes nor their tags change. -/
theorem taggedNamespaces_retype : (u.retype κ).taggedNamespaces = u.taggedNamespaces := by
  unfold taggedNamespaces scopeName
  simp only [qualifiedName_retype]
  rfl

-- ============================================================ bodies

private theorem listing_cons (id : StmtId) (rest : List StmtId) :
    u.listing (id :: rest) = u.statement id >>= fun s =>
      if ∀ c ∈ s.children, c.index < id.index then (u.listing (s.children ++ rest)).map (id :: ·)
      else .error .endless := by
  rw [listing]
  split
  · next fault found => rw [found]; rfl
  · next s found =>
    rw [found, ok_bind]
    split
    · split
      · next listed => rw [listed]; rfl
      · next listed => rw [listed]; rfl
    · rfl

/-- The worklist goes by the children alone, so it lists the same statements, with the same
faults. -/
private theorem listing_retype (pending : List StmtId) :
    (u.retype κ).listing pending = u.listing pending := by
  fun_induction u.listing pending with
  | case1 => rw [listing]
  | case2 id rest fault found =>
    rw [listing_cons, statement_retype, found]
    rfl
  | case3 id rest s found earlier fault listed ih =>
    rw [listing_cons, statement_retype, map_bind_result, found, ok_bind, Stmt.children_retype,
      if_pos earlier, ih, listed]
    rfl
  | case4 id rest s found earlier ids listed ih =>
    rw [listing_cons, statement_retype, map_bind_result, found, ok_bind, Stmt.children_retype,
      if_pos earlier, ih, listed]
    rfl
  | case5 id rest s found late =>
    rw [listing_cons, statement_retype, map_bind_result, found, ok_bind, Stmt.children_retype,
      if_neg late]

/-- A body consists of the statements that it did. -/
theorem bodyStmts_retype (f : FunctionId) : (u.retype κ).bodyStmts f = u.bodyStmts f := by
  unfold bodyStmts
  rw [function_retype, map_bind_result]
  exact bind_congr fun decl => listing_retype decl.body.toList

private theorem initializers_retype (s : Stmt) :
    (u.retype κ).initializers (s.retype κ) = (u.initializers s).map (List.map (·.retype κ)) := by
  unfold initializers
  rw [Stmt.declared_retype, mapM_map_result fun id _ => variableDecl_retype id, map_bind_result]
  rw [bind_pure_map_result]
  refine bind_congr fun declared => ?_
  rw [List.filterMap_map, List.map_filterMap]
  rfl

private theorem stmtNodes_retype (id : StmtId) :
    (do
      let s ← (u.retype κ).statement id
      let inits ← (u.retype κ).initializers s
      return Expr.nodesOfList (inits ++ s.exprs)) =
    Except.map (List.map (·.retype κ)) (do
      let s ← u.statement id
      let inits ← u.initializers s
      return Expr.nodesOfList (inits ++ s.exprs)) := by
  rw [statement_retype, map_bind_result]
  cases u.statement id with
  | error fault => rfl
  | ok s =>
    simp only [ok_bind, initializers_retype, map_bind_result, Stmt.exprs_retype,
      ← List.map_append, Expr.nodesOfList_retype fun e _ => e.nodes_retype, bind_pure_map_result]

/-- The nodes of a body are those that it had, retyped, in the same order. -/
theorem bodyNodes_retype (f : FunctionId) :
    (u.retype κ).bodyNodes f = (u.bodyNodes f).map (List.map (·.retype κ)) := by
  unfold bodyNodes
  rw [bodyStmts_retype]
  cases u.bodyStmts f with
  | error fault => rfl
  | ok ids =>
    rw [ok_bind, ok_bind, mapM_map_result fun id _ => stmtNodes_retype id, map_bind_result,
      bind_pure_map_result]
    refine bind_congr fun perStmt => ?_
    rw [List.map_flatten]

end TranslationUnit

end SafeDialect
