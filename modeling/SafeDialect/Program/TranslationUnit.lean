/-
The translation unit: all tables of one checked program.

Scope 0 is the unit itself. Entries are read through the look-ups below, which give a fault for an
index outside its table.
-/
import SafeDialect.Program.Declaration
import SafeDialect.Program.TypeTable

namespace SafeDialect

/-- The scope of the unit itself. -/
def ScopeId.root : ScopeId := ⟨0⟩

/-- The tables of a program. Entries refer to each other by slot. -/
structure TranslationUnit where
  files : Array SourceFile
  types : TypeTable
  scopes : Array Scope
  records : Array RecordDecl
  functions : Array FunctionDecl
  vars : Array VariableDecl
  statements : Array Stmt

namespace TranslationUnit

/-- The unit with nothing in it but its own scope. -/
def empty : TranslationUnit where
  files := #[]
  types := .empty
  scopes := #[{ name := none, kind := .translationUnit, parent := none, attributes := .empty }]
  records := #[]
  functions := #[]
  vars := #[]
  statements := #[]

instance : Inhabited TranslationUnit := ⟨empty⟩

/-- A file, if it is listed. Places in other files are taken for library code. -/
def file? (u : TranslationUnit) (id : FileId) : Option SourceFile := u.files[id.index]?

/-- The scope at a slot. -/
def scope (u : TranslationUnit) (id : ScopeId) : Result Scope := entry .scopes u.scopes id.index

/-- The record at a slot. -/
def record (u : TranslationUnit) (id : RecordId) : Result RecordDecl :=
  entry .records u.records id.index

/-- The function at a slot. -/
def function (u : TranslationUnit) (id : FunctionId) : Result FunctionDecl :=
  entry .functions u.functions id.index

/-- The variable at a slot. -/
def variableDecl (u : TranslationUnit) (id : VariableId) : Result VariableDecl :=
  entry .vars u.vars id.index

/-- The statement at a slot. -/
def statement (u : TranslationUnit) (id : StmtId) : Result Stmt :=
  entry .statements u.statements id.index

/-- The statement around a statement. -/
def parentStmt (u : TranslationUnit) (id : StmtId) : Result (Option StmtId) := do
  let s ← u.statement id
  return s.parent

/-- All scopes, in the order of their slots. -/
def scopeIds (u : TranslationUnit) : List ScopeId := (List.range u.scopes.size).map .mk

/-- All records, in the order of their slots. -/
def recordIds (u : TranslationUnit) : List RecordId := (List.range u.records.size).map .mk

/-- All functions, in the order of their slots. -/
def functionIds (u : TranslationUnit) : List FunctionId :=
  (List.range u.functions.size).map .mk

/-- All variables, in the order of their slots. -/
def variableIds (u : TranslationUnit) : List VariableId :=
  (List.range u.vars.size).map .mk

/-- All statements, in the order of their slots. -/
def statementIds (u : TranslationUnit) : List StmtId :=
  (List.range u.statements.size).map .mk

/-- Locations in library code: those without a file, in an unlisted file or in a system file. -/
def isSystemLocation (u : TranslationUnit) (loc : Location) : Bool :=
  match loc.file.bind u.file? with
  | some file => file.isSystem
  | none => true

end TranslationUnit

end SafeDialect
