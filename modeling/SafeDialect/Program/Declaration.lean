/-
Declarations: scopes, records, functions and variables.

A scope is what encloses declarations: the unit itself, namespaces, linkage blocks, records,
functions and enumerations. Unit and linkage blocks do not take part in qualified names. A record
without a definition of its own may still have one through the template it was made from.
-/
import SafeDialect.Program.Attribute
import SafeDialect.Program.Stmt

namespace SafeDialect

/-- The slot of a scope. -/
structure ScopeId where
  index : Nat
  deriving DecidableEq

/-- What a scope encloses the declarations of. -/
inductive ScopeKind where
  | translationUnit
  | nameSpace
  | linkageBlock
  | record (id : RecordId)
  | function (id : FunctionId)
  | enum
  deriving DecidableEq

/-- Whether scopes of this kind are part of the qualified names inside them. -/
def ScopeKind.isNamed : ScopeKind → Bool
  | translationUnit | linkageBlock => false
  | _ => true

/-- A scope. An anonymous namespace has an empty name. -/
structure Scope where
  name : Option String
  kind : ScopeKind
  parent : Option ScopeId
  attributes : AttributeSet

-- ============================================================ records

/-- The word that a record was declared with. -/
inductive RecordTag where
  | struct
  | classTag
  | union
  deriving DecidableEq

/-- An argument of a template: a type, a number, or something that is only kept as text. -/
inductive TemplateArg where
  | type (type : QualifiedType)
  | integral (value : Int)
  | other (text : String)
  deriving DecidableEq

/-- The type of a template argument that is one. -/
def TemplateArg.type? : TemplateArg → Option QualifiedType
  | type t => some t
  | _ => none

/-- A field of a record. Whether it has an initializer matters for determinism; which one does
not. -/
structure Field where
  name : String
  type : QualifiedType
  location : Location
  hasInitializer : Bool
  deriving DecidableEq

/-- A record that another one derives from, as a type and with the place where it is named. -/
structure Base where
  type : QualifiedType
  location : Location
  deriving DecidableEq

/-- The members of a defined record. -/
structure RecordDefinition where
  fields : List Field
  bases : List Base
  methods : List FunctionId
  deriving DecidableEq

/-- The definition of a record without members. -/
def RecordDefinition.empty : RecordDefinition := ⟨[], [], []⟩

/-- A record: a struct, class or union. -/
structure RecordDecl where
  name : String
  scope : ScopeId
  location : Location
  tag : RecordTag
  definition : Option RecordDefinition
  templateArgs : List TemplateArg
  /-- The template that the record was made from. -/
  pattern : Option RecordId
  isTemplate : Bool
  isImplicitInstantiation : Bool
  isLambda : Bool
  attributes : AttributeSet

namespace RecordDecl

/-- A struct that is declared and not defined. -/
def declared (name : String) (scope : ScopeId) (location : Location) : RecordDecl where
  name := name
  scope := scope
  location := location
  tag := .struct
  definition := none
  templateArgs := []
  pattern := none
  isTemplate := false
  isImplicitInstantiation := false
  isLambda := false
  attributes := .empty

def isUnion (r : RecordDecl) : Bool := r.tag == .union

def isDefined (r : RecordDecl) : Bool := r.definition.isSome

/-- Whether a record is tagged with an attribute. -/
def has (r : RecordDecl) (a : Attribute) : Bool := r.attributes.contains a

/-- The members; a record without definition has none. -/
def members (r : RecordDecl) : RecordDefinition := r.definition.getD .empty

/-- The fields of a record, in the order of their declaration. -/
def fields (r : RecordDecl) : List Field := r.members.fields

/-- The bases of a record, in the order of their declaration. -/
def bases (r : RecordDecl) : List Base := r.members.bases

/-- The methods of a record, in the order of their declaration. -/
def methods (r : RecordDecl) : List FunctionId := r.members.methods

/-- Defined, with neither fields nor bases. -/
def isEmpty (r : RecordDecl) : Bool := r.isDefined && r.fields.isEmpty && r.bases.isEmpty

end RecordDecl

-- ============================================================ functions

/-- What a function is for. A constructor is told apart by whether it copies or moves. -/
inductive FunctionKind where
  | free
  | method
  | constructor (copyOrMove : Bool)
  | destructor
  | copyAssign
  | moveAssign
  | conversion
  deriving DecidableEq

/-- The operator that a function overloads. -/
inductive OverloadedOperator where
  | call
  | star
  | arrow
  | assign
  | subscript
  | other (spelling : String)
  deriving DecidableEq

/-- A function, with what it was declared as and, if it has a body, where that starts. -/
structure FunctionDecl where
  name : String
  scope : ScopeId
  location : Location
  kind : FunctionKind
  operator : Option OverloadedOperator
  /-- The record that a method belongs to. -/
  parent : Option RecordId
  isConst : Bool
  isStatic : Bool
  isVirtual : Bool
  isDefaulted : Bool
  isDeleted : Bool
  params : List VariableId
  ret : QualifiedType
  body : Option StmtId
  /-- The template that the function was made from. -/
  pattern : Option FunctionId
  attributes : AttributeSet

namespace FunctionDecl

/-- A function without parameters and body. -/
def declared (name : String) (scope : ScopeId) (location : Location) (kind : FunctionKind)
    (ret : QualifiedType) : FunctionDecl where
  name := name
  scope := scope
  location := location
  kind := kind
  operator := none
  parent := none
  isConst := false
  isStatic := false
  isVirtual := false
  isDefaulted := false
  isDeleted := false
  params := []
  ret := ret
  body := none
  pattern := none
  attributes := .empty

/-- Whether a function is tagged with an attribute. -/
def has (f : FunctionDecl) (a : Attribute) : Bool := f.attributes.contains a

/-- Whether it is called on an object. -/
def isInstanceMethod (f : FunctionDecl) : Bool := f.parent.isSome && !f.isStatic

/-- Whether it assigns an object of its own record. -/
def isCopyOrMoveAssign (f : FunctionDecl) : Bool :=
  match f.kind with
  | .copyAssign | .moveAssign => true
  | _ => false

def isConstructor (f : FunctionDecl) : Bool :=
  match f.kind with
  | .constructor _ => true
  | _ => false

end FunctionDecl

-- ============================================================ variables

/-- How a variable is stored, and how it came into being. -/
inductive VariableKind where
  | localVar
  | param
  | catchParam
  | global
  | staticLocal
  deriving DecidableEq

/-- A variable, be it a local, a parameter or a global. -/
structure VariableDecl where
  name : String
  type : QualifiedType
  location : Location
  kind : VariableKind
  attributes : AttributeSet
  /-- The statement that declares a local. -/
  declStmt : Option StmtId
  init : Option Expr
  /-- The function that a parameter or local belongs to. -/
  function : Option FunctionId

namespace VariableDecl

/-- A variable without initializer and owner. -/
def declared (name : String) (type : QualifiedType) (location : Location) (kind : VariableKind) :
    VariableDecl where
  name := name
  type := type
  location := location
  kind := kind
  attributes := .empty
  declStmt := none
  init := none
  function := none

/-- Whether a variable is tagged with an attribute. -/
def has (v : VariableDecl) (a : Attribute) : Bool := v.attributes.contains a

/-- Lives as long as the program. -/
def hasGlobalStorage (v : VariableDecl) : Bool :=
  match v.kind with
  | .global | .staticLocal => true
  | _ => false

def isParam (v : VariableDecl) : Bool := v.kind == .param

/-- Parameters of functions and of handlers get their value from elsewhere. -/
def isParamOrCatch (v : VariableDecl) : Bool :=
  match v.kind with
  | .param | .catchParam => true
  | _ => false

end VariableDecl

end SafeDialect
