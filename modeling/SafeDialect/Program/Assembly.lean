/-
Assembling a unit by hand.

An assembly is a unit together with a counter of offsets, so that each declaration, expression and
statement gets a location of its own, in the user file or in the system file. Operations follow the
ids that they need and only store the others; back links are set as entries are added.
-/
import SafeDialect.Names.Segments
import SafeDialect.Program.Linking

namespace SafeDialect

/-- A unit that is being assembled, with its two files and the next offset that is free in them. -/
structure Assembly where
  unit : TranslationUnit
  userFile : FileId
  systemFile : FileId
  nextOffset : Nat

/-- The assembly of an empty unit with one user file and one system file. -/
def Assembly.start : Assembly :=
  let (unit, userFile) := TranslationUnit.empty.addFile "main.cpp" false
  let (unit, systemFile) := unit.addFile "/usr/include/safe_library.h" true
  { unit, userFile, systemFile, nextOffset := 0 }

/-- A step of an assembly, with its result. -/
abbrev Assemble (α : Type) := StateT Assembly Result α

namespace Assemble

/-- The unit as it is so far. -/
def unit : Assemble TranslationUnit := return (← get).unit

/-- Replaces the unit and keeps the offsets. -/
def setUnit (u : TranslationUnit) : Assemble PUnit := modify fun a => { a with unit := u }

/-- Asks the unit something. -/
def ask {α : Type} (question : TranslationUnit → Result α) : Assemble α := do
  question (← unit)

/-- Changes the unit by adding something to it. -/
def add {α : Type} (change : TranslationUnit → Result (TranslationUnit × α)) : Assemble α := do
  let (u, a) ← change (← unit)
  setUnit u
  return a

-- ============================================================ locations

/-- A new offset, one byte long. -/
def nextSpan : Assemble Span := do
  let a ← get
  set { a with nextOffset := a.nextOffset + 1 }
  return ⟨a.nextOffset, 1⟩

/-- A place in the user file that no other entry has. -/
def userLocation : Assemble Location := do
  let span ← nextSpan
  return ⟨some (← get).userFile, span⟩

/-- A place in the system file that no other entry has. -/
def systemLocation : Assemble Location := do
  let span ← nextSpan
  return ⟨some (← get).systemFile, span⟩

-- ============================================================ types

/-- The unqualified type with the given layer. -/
def typeOf (shape : TypeShape) : Assemble QualifiedType :=
  add fun u => do
    let (types, id) ← u.types.intern shape
    return ({ u with types }, .plain id)

/-- A builtin type. -/
def builtin (kind : Builtin) : Assemble QualifiedType := typeOf (.builtin kind)

def int : Assemble QualifiedType := builtin .int

def void : Assemble QualifiedType := builtin .void

/-- The type of pointers to another one, synonyms of which are followed. -/
def pointerTo (pointee : QualifiedType) : Assemble QualifiedType := typeOf (.pointer pointee)

/-- The type of references to another one. It is an lvalue reference. -/
def referenceTo (referent : QualifiedType) : Assemble QualifiedType :=
  typeOf (.lvalueReference referent)

/-- The type that a record is. -/
def recordType (id : RecordId) : Assemble QualifiedType := typeOf (.record id)

-- ============================================================ scopes

/-- Adds a file. -/
def addFile (path : String) (isSystem : Bool) : Assemble FileId :=
  add fun u => return u.addFile path isSystem

/-- Adds a scope. -/
def addScope (scope : Scope) : Assemble ScopeId := add fun u => return u.addScope scope

/-- Adds a namespace, whether or not there is one of that name. -/
def addNamespace (name : String) (parent : ScopeId) : Assemble ScopeId :=
  add fun u => return u.addNamespace name parent

/-- Opens a scope for the declarations inside a record, whether or not there is one. -/
def addRecordScope (id : RecordId) : Assemble ScopeId := add (·.addRecordScope id)

/-- The first scope of the unit with a property. -/
def findScope? (u : TranslationUnit) (p : Scope → Bool) : Option ScopeId :=
  (u.scopes.findIdx? p).map .mk

/-- The namespace of a name directly inside a scope, opened if there is none. -/
def namespaceIn (parent : ScopeId) (name : String) : Assemble ScopeId := do
  let isIt (s : Scope) : Bool :=
    s.kind == .nameSpace && s.parent == some parent && s.name == some name
  match findScope? (← unit) isIt with
  | some id => return id
  | none => addNamespace name parent

/-- The namespace of a path such as `a::b`; the empty path is the unit. -/
def namespacePath (path : String) : Assemble ScopeId :=
  ((Names.segments path).filter (! ·.isEmpty)).foldlM namespaceIn ScopeId.root

/-- Tags a namespace. -/
def namespaceAttribute (id : ScopeId) (a : Attribute) : Assemble PUnit :=
  add fun u => do
    let scopes ← modifyEntry .scopes u.scopes id.index
      fun s => { s with attributes := s.attributes.insert a }
    return ({ u with scopes }, ⟨⟩)

/-- The scope of the declarations inside a record, opened if there is none. -/
def recordScope (id : RecordId) : Assemble ScopeId := do
  match findScope? (← unit) (·.kind == .record id) with
  | some scope => return scope
  | none => addRecordScope id

-- ============================================================ records

/-- Adds a record. -/
def addRecord (r : RecordDecl) : Assemble RecordId := add fun u => return u.addRecord r

/-- Changes a record in its place. -/
def modifyRecord (id : RecordId) (change : RecordDecl → RecordDecl) : Assemble PUnit :=
  add fun u => do
    let records ← modifyEntry .records u.records id.index change
    return ({ u with records }, ⟨⟩)

/-- Changes the members of a record, which is defined by that if it was not. -/
def modifyMembers (id : RecordId) (change : RecordDefinition → RecordDefinition) :
    Assemble PUnit :=
  modifyRecord id fun r => { r with definition := some (change r.members) }

/-- A record with a definition that has no members yet. -/
def defineRecord (location : Location) (scope : ScopeId) (name : String) (tag : RecordTag) :
    Assemble RecordId :=
  addRecord { RecordDecl.declared name scope location with tag, definition := some .empty }

/-- A struct of user code. -/
def struct (scope : ScopeId) (name : String) : Assemble RecordId := do
  defineRecord (← userLocation) scope name .struct

/-- A union of user code. -/
def union (scope : ScopeId) (name : String) : Assemble RecordId := do
  defineRecord (← userLocation) scope name .union

/-- A struct of library code. -/
def systemStruct (scope : ScopeId) (name : String) : Assemble RecordId := do
  defineRecord (← systemLocation) scope name .struct

/-- The type of a library template with a qualified name, at the given arguments. -/
def templateInstance (qualified : String) (args : List QualifiedType) :
    Assemble QualifiedType := do
  let (path, name) := Names.splitLast qualified
  let scope ← namespacePath path
  let id ← systemStruct scope name
  modifyRecord id fun r =>
    { r with templateArgs := args.map .type, isImplicitInstantiation := true }
  recordType id

/-- Tags a record. -/
def recordAttribute (id : RecordId) (a : Attribute) : Assemble PUnit :=
  modifyRecord id fun r => { r with attributes := r.attributes.insert a }

/-- Adds a field, and gives its index. -/
def field (id : RecordId) (name : String) (type : QualifiedType) (hasInitializer : Bool) :
    Assemble Nat := do
  let location ← userLocation
  modifyMembers id fun d =>
    { d with fields := d.fields ++ [⟨name, type, location, hasInitializer⟩] }
  let r ← ask (·.record id)
  return r.fields.length - 1

/-- Adds a base after those that are there. -/
def base (id : RecordId) (type : QualifiedType) : Assemble PUnit := do
  let location ← userLocation
  modifyMembers id fun d => { d with bases := d.bases ++ [⟨type, location⟩] }

-- ============================================================ functions and variables

/-- Adds a function, which becomes the owner of its parameters. -/
def addFunction (f : FunctionDecl) : Assemble FunctionId := add (·.addFunction f)

/-- Adds a variable. -/
def addVariable (v : VariableDecl) : Assemble VariableId := add fun u => return u.addVariable v

/-- Changes a function in its place. Its parameters are not linked again. -/
def modifyFunction (id : FunctionId) (change : FunctionDecl → FunctionDecl) : Assemble PUnit :=
  add fun u => do
    let functions ← modifyEntry .functions u.functions id.index change
    return ({ u with functions }, ⟨⟩)

/-- Changes a variable in its place. -/
def modifyVariable (id : VariableId) (change : VariableDecl → VariableDecl) : Assemble PUnit :=
  add fun u => do
    let vars ← modifyEntry .vars u.vars id.index change
    return ({ u with vars }, ⟨⟩)

/-- A method of a record, without parameters and result. -/
def method (id : RecordId) (name : String) (kind : FunctionKind) : Assemble FunctionId := do
  let location ← userLocation
  let ret ← void
  let scope ← recordScope id
  let f ← addFunction { FunctionDecl.declared name scope location kind ret with
    parent := some id
    operator := if name = "operator()" then some .call else none }
  modifyMembers id fun d => { d with methods := d.methods ++ [f] }
  return f

/-- A parameter of no function yet. -/
def newParam (param : String × QualifiedType) : Assemble VariableId := do
  addVariable (.declared param.1 param.2 (← userLocation) .param)

/-- A free function of user code. -/
def function (name : String) (params : List (String × QualifiedType)) (ret : QualifiedType) :
    Assemble FunctionId := do
  let location ← userLocation
  let ids ← params.mapM newParam
  addFunction { FunctionDecl.declared name .root location .free ret with params := ids }

/-- Adds one parameter to a function. -/
def appendParam (f : FunctionId) (param : String × QualifiedType) : Assemble VariableId := do
  let decl := VariableDecl.declared param.1 param.2 (← userLocation) .param
  let id ← addVariable { decl with function := some f }
  modifyFunction f fun d => { d with params := d.params ++ [id] }
  return id

/-- Adds parameters to a function. -/
def appendParams (f : FunctionId) (params : List (String × QualifiedType)) :
    Assemble (List VariableId) :=
  params.mapM (appendParam f)

/-- The parameter of a function at a position. -/
def paramAt (f : FunctionId) (i : Nat) : Assemble VariableId := do
  let decl ← ask (·.function f)
  match decl.params[i]? with
  | some id => return id
  | none => throw (.noElement i)

/-- A variable of user code that belongs to a function or to none. -/
def newVariable (owner : Option FunctionId) (name : String) (type : QualifiedType)
    (kind : VariableKind) : Assemble VariableId := do
  let decl := VariableDecl.declared name type (← userLocation) kind
  addVariable { decl with function := owner }

/-- A local of a function, which no statement declares yet. -/
def localVariable (f : FunctionId) (name : String) (type : QualifiedType) :
    Assemble VariableId :=
  newVariable (some f) name type .localVar

/-- A global. -/
def globalVariable (name : String) (type : QualifiedType) : Assemble VariableId :=
  newVariable none name type .global

/-- Tags a variable. -/
def variableAttribute (id : VariableId) (a : Attribute) : Assemble PUnit :=
  modifyVariable id fun v => { v with attributes := v.attributes.insert a }

/-- Gives a variable its initializer. -/
def setInitializer (id : VariableId) (e : Expr) : Assemble PUnit :=
  modifyVariable id fun v => { v with init := some e }

/-- Gives a function its body. The statements below it are not touched. -/
def setBody (f : FunctionId) (body : StmtId) : Assemble PUnit :=
  modifyFunction f fun d => { d with body := some body }

-- ============================================================ expressions

/-- An expression at a place of its own. -/
def expr (type : QualifiedType) (node : Node) : Assemble Expr := do
  return .mk (← userLocation) type node

/-- A variable, used as an expression of its type. -/
def variableRef (id : VariableId) : Assemble Expr := do
  let v ← ask (·.variableDecl id)
  expr v.type (.declRef (.variableRef id))

/-- A function, used as an expression, with void for its type. -/
def functionRef (id : FunctionId) : Assemble Expr := do
  expr (← void) (.declRef (.functionRef id))

def thisObject (type : QualifiedType) : Assemble Expr := expr type .thisObject

def nullPointer : Assemble Expr := do
  expr (← builtin .nullPtr) .nullPointer

def integer (value : Int) : Assemble Expr := do
  expr (← int) (.integer value)

/-- A member that is accessed by name, on an object or through a pointer to it. -/
def member (base : Expr) (name : String) (type : QualifiedType) (isArrow : Bool) :
    Assemble Expr :=
  expr type (.member base name isArrow)

/-- An assignment, which has the type of what is assigned to. -/
def assign (lhs rhs : Expr) : Assemble Expr := expr lhs.type (.binary .assign lhs rhs)

/-- A call of a free function, which has the type of its result. -/
def call (callee : FunctionId) (args : List Expr) : Assemble Expr := do
  let f ← ask (·.function callee)
  expr f.ret (.freeCall (some callee) args)

/-- A call of a member function on an object or through a pointer to it. -/
def memberCall (base : Expr) (callee : FunctionId) (args : List Expr) (isArrow : Bool) :
    Assemble Expr := do
  let f ← ask (·.function callee)
  expr f.ret (.memberCall (some callee) base isArrow args)

/-- A lambda with a new closure record in user code. -/
def lambda (captures : List CaptureKind) : Assemble Expr := do
  let closure ← struct .root ""
  modifyRecord closure fun r => { r with isLambda := true }
  let type ← recordType closure
  let captures ← captures.mapM fun kind => return ⟨kind, ← userLocation⟩
  expr type (.lambda ⟨some closure, captures⟩)

-- ============================================================ statements

/-- Adds a statement, which becomes the parent of its children. -/
def addStmt (s : Stmt) : Assemble StmtId := add (·.addStmt s)

/-- A statement at a place of its own, around the children that it lists. -/
def stmt (shape : StmtShape) : Assemble StmtId := do
  addStmt ⟨none, ← userLocation, shape⟩

/-- Declares variables. -/
def declareStmt (vars : List VariableId) : Assemble StmtId := stmt (.declare vars)

def exprStmt (e : Expr) : Assemble StmtId := stmt (.evaluate e)

def returnStmt (value : Option Expr) : Assemble StmtId := stmt (.giveBack value)

def compound (items : List StmtId) : Assemble StmtId := stmt (.compound items)

end Assemble

end SafeDialect
