/-
Back links: parents of statements, declaring statements of variables, owners of parameters.

Each is determined by the forward links (children, declared variables, parameters). A unit that
is grown entry by entry sets them as entries are added; `link` sets them for a whole unit. If
several entries refer to the same one, the last stands.

An entry that is added goes into the next slot of its table. Slots are natural numbers, so there is
always a next one. Where ids have 32 bits, there is one as long as the table has fewer than 2 ^ 32
entries.
-/
import SafeDialect.Program.TranslationUnit

namespace SafeDialect

namespace TranslationUnit

/-- Notes in a statement the one that lists it. -/
def setParent (parent : StmtId) (u : TranslationUnit) (child : StmtId) :
    Result TranslationUnit := do
  let statements ← modifyEntry .statements u.statements child.index
    fun s => { s with parent := some parent }
  return { u with statements }

/-- Notes in a variable the statement that declares it. -/
def setDeclStmt (stmt : StmtId) (u : TranslationUnit) (v : VariableId) :
    Result TranslationUnit := do
  let vars ← modifyEntry .vars u.vars v.index
    fun d => { d with declStmt := some stmt }
  return { u with vars }

/-- Notes in a variable the function whose parameter it is. -/
def setOwner (f : FunctionId) (u : TranslationUnit) (v : VariableId) :
    Result TranslationUnit := do
  let vars ← modifyEntry .vars u.vars v.index
    fun d => { d with function := some f }
  return { u with vars }

/-- Links the children and the declared variables of a statement back to it. -/
def adopt (u : TranslationUnit) (id : StmtId) : Result TranslationUnit := do
  let s ← u.statement id
  let u ← s.children.foldlM (setParent id) u
  s.declared.foldlM (setDeclStmt id) u

/-- Links the parameters of a function back to it. -/
def own (u : TranslationUnit) (id : FunctionId) : Result TranslationUnit := do
  let f ← u.function id
  f.params.foldlM (setOwner id) u

/-- Sets all back links from the forward links. -/
def link (u : TranslationUnit) : Result TranslationUnit := do
  let u ← u.statementIds.foldlM adopt u
  u.functionIds.foldlM own u

-- ============================================================ growing a unit

/-- Adds a file. Its id fits 32 bits as long as there are fewer than 2 ^ 32 files before it. -/
def addFile (u : TranslationUnit) (path : String) (isSystem : Bool) :
    TranslationUnit × FileId :=
  ({ u with files := u.files.push ⟨path, isSystem⟩ }, ⟨u.files.size⟩)

/-- Adds a scope. Its id fits 32 bits as long as there are fewer than 2 ^ 32 scopes before it. -/
def addScope (u : TranslationUnit) (scope : Scope) : TranslationUnit × ScopeId :=
  ({ u with scopes := u.scopes.push scope }, ⟨u.scopes.size⟩)

/-- Adds a namespace inside a scope, under the bound of `addScope`. -/
def addNamespace (u : TranslationUnit) (name : String) (parent : ScopeId) :
    TranslationUnit × ScopeId :=
  u.addScope { name := some name, kind := .nameSpace, parent := some parent, attributes := .empty }

/-- Opens the scope of a record, for the declarations inside it, under the bound of `addScope`. -/
def addRecordScope (u : TranslationUnit) (id : RecordId) :
    Result (TranslationUnit × ScopeId) := do
  let r ← u.record id
  return u.addScope
    { name := some r.name, kind := .record id, parent := some r.scope, attributes := .empty }

/-- Adds a record. Its id fits 32 bits as long as there are fewer than 2 ^ 32 records before it. -/
def addRecord (u : TranslationUnit) (r : RecordDecl) : TranslationUnit × RecordId :=
  ({ u with records := u.records.push r }, ⟨u.records.size⟩)

/-- Adds a function and links its parameters back to it. Its id fits 32 bits as long as there are
fewer than 2 ^ 32 functions before it. -/
def addFunction (u : TranslationUnit) (f : FunctionDecl) :
    Result (TranslationUnit × FunctionId) := do
  let id : FunctionId := ⟨u.functions.size⟩
  let u ← f.params.foldlM (setOwner id) u
  return ({ u with functions := u.functions.push f }, id)

/-- Adds a variable. Its id fits 32 bits as long as there are fewer than 2 ^ 32 variables before
it. -/
def addVariable (u : TranslationUnit) (v : VariableDecl) : TranslationUnit × VariableId :=
  ({ u with vars := u.vars.push v }, ⟨u.vars.size⟩)

/-- Adds a statement and links its children and declared variables back to it. Its id fits 32 bits
as long as there are fewer than 2 ^ 32 statements before it. -/
def addStmt (u : TranslationUnit) (s : Stmt) : Result (TranslationUnit × StmtId) := do
  let id : StmtId := ⟨u.statements.size⟩
  let u ← ({ u with statements := u.statements.push s } : TranslationUnit).adopt id
  return (u, id)

end TranslationUnit

end SafeDialect
