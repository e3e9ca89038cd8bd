/-
The JSON form of declarations and of whole units.

A declaration is written as an object with a key for each of its parts, and a kind as the name of
its case or, if the case holds something, as an object with that name for its one key. All keys are
written. When a unit is read, the key of a list, a flag or an option may be missing: then the part
is empty, false or none. Keys that are not known are passed over.
-/
import SafeDialect.Interchange.Expr
import SafeDialect.Program.TranslationUnit

namespace SafeDialect

namespace ScopeId

/-- A scope is referred to by its slot. -/
def toJson (id : ScopeId) : Json := .ofNat id.index

/-- Reads a slot of 32 bits. -/
def decoder : Decoder ScopeId := .map .mk .nat32

end ScopeId

namespace AttributeSet

/-- Attributes are written by name, in the order in which attributes are listed. -/
def toJson (s : AttributeSet) : Json := .ofList (Json.ofString ·.name) s.toList

/-- Reads an attribute by its name. -/
def attributeDecoder : Decoder Attribute := .enumeration Attribute.ofName?

/-- Reads a list of attributes, in any order and with repetitions. -/
def decoder : Decoder AttributeSet := .map ofList (.list attributeDecoder)

end AttributeSet

-- ============================================================ scopes

namespace ScopeKind

/-- What a scope is the scope of. -/
def toJson : ScopeKind → Json
  | translationUnit => .ofString "TranslationUnit"
  | nameSpace => .ofString "Namespace"
  | linkageBlock => .ofString "LinkageSpec"
  | record id => .tagged "Record" id.toJson
  | function id => .tagged "Function" id.toJson
  | enum => .ofString "Enum"

/-- Reads what a scope is the scope of. -/
def decoder : Decoder ScopeKind :=
  .variant fun name content =>
    match name with
    | "TranslationUnit" => content.nothing translationUnit
    | "Namespace" => content.nothing nameSpace
    | "LinkageSpec" => content.nothing linkageBlock
    | "Record" => content.holding (.map record RecordId.decoder)
    | "Function" => content.holding (.map function FunctionId.decoder)
    | "Enum" => content.nothing enum
    | _ => none

end ScopeKind

namespace Scope

/-- A scope with its name, its kind, the scope around it and its attributes. -/
def toJson (s : Scope) : Json :=
  .record [("name", .ofOption .ofString s.name), ("kind", s.kind.toJson),
    ("parent", .ofOption ScopeId.toJson s.parent), ("attrs", s.attributes.toJson)]

/-- Reads a scope. Attributes may be missing. -/
def decoder : Decoder Scope :=
  .struct ["name", "kind", "parent", "attrs"] fun fs => do
    return {
      name := ← fs.nullable "name" .text
      kind := ← fs.required "kind" ScopeKind.decoder
      parent := ← fs.nullable "parent" ScopeId.decoder
      attributes := ← fs.withDefault "attrs" AttributeSet.decoder .empty }

end Scope

-- ============================================================ records

namespace RecordTag

/-- The tags of records. -/
def all : List RecordTag := [struct, classTag, union]

/-- The name of a record's tag in its JSON form. -/
def name : RecordTag → String
  | struct => "Struct"
  | classTag => "Class"
  | union => "Union"

def toJson (t : RecordTag) : Json := .ofString t.name

/-- Reads a tag by its name. -/
def decoder : Decoder RecordTag := .oneOf all name

end RecordTag

namespace TemplateArg

/-- A template argument, tagged with what it is: a type, a number of 64 bits or something else. -/
def toJson : TemplateArg → Json
  | type t => .tagged "Type" t.toJson
  | integral value => .tagged "Integral" (.ofInt value)
  | other text => .tagged "Other" (.ofString text)

/-- Reads a template argument. -/
def decoder : Decoder TemplateArg :=
  .variant fun name content =>
    match name with
    | "Type" => content.holding (.map type QualifiedType.decoder)
    | "Integral" => content.holding (.map integral .int64)
    | "Other" => content.holding (.map other .text)
    | _ => none

end TemplateArg

namespace Field

/-- A field of a record. -/
def toJson (f : Field) : Json :=
  .record [("name", .ofString f.name), ("ty", f.type.toJson), ("location", f.location.toJson),
    ("has_in_class_init", .bool f.hasInitializer)]

/-- Reads a field. It has no initializer unless it is said to have one. -/
def decoder : Decoder Field :=
  .struct ["name", "ty", "location", "has_in_class_init"] fun fs => do
    return ⟨← fs.required "name" .text, ← fs.required "ty" QualifiedType.decoder,
      ← fs.required "location" Location.decoder, ← fs.withDefault "has_in_class_init" .bool false⟩

end Field

namespace Base

/-- A base of a record. -/
def toJson (b : Base) : Json :=
  .record [("ty", b.type.toJson), ("location", b.location.toJson)]

/-- Reads a base. -/
def decoder : Decoder Base :=
  .struct ["ty", "location"] fun fs => do
    return ⟨← fs.required "ty" QualifiedType.decoder, ← fs.required "location" Location.decoder⟩

end Base

namespace RecordDefinition

/-- What a record consists of: fields and bases in place, methods by slot. -/
def toJson (d : RecordDefinition) : Json :=
  .record [("fields", .ofList Field.toJson d.fields), ("bases", .ofList Base.toJson d.bases),
    ("methods", .ofList FunctionId.toJson d.methods)]

/-- Reads a definition, of which every part may be missing. -/
def decoder : Decoder RecordDefinition :=
  .struct ["fields", "bases", "methods"] fun fs => do
    return ⟨← fs.withDefault "fields" (.list Field.decoder) [],
      ← fs.withDefault "bases" (.list Base.decoder) [],
      ← fs.withDefault "methods" (.list FunctionId.decoder) []⟩

end RecordDefinition

namespace RecordDecl

/-- A record, with `null` for a definition that there is not. -/
def toJson (r : RecordDecl) : Json :=
  .record [("name", .ofString r.name), ("context", r.scope.toJson),
    ("location", r.location.toJson), ("tag", r.tag.toJson),
    ("definition", .ofOption RecordDefinition.toJson r.definition),
    ("template_args", .ofList TemplateArg.toJson r.templateArgs),
    ("pattern", .ofOption RecordId.toJson r.pattern), ("is_template", .bool r.isTemplate),
    ("is_implicit_instantiation", .bool r.isImplicitInstantiation),
    ("is_lambda", .bool r.isLambda), ("attrs", r.attributes.toJson)]

/-- Reads a record. All but its name, scope, location and tag may be missing. -/
def decoder : Decoder RecordDecl :=
  .struct ["name", "context", "location", "tag", "definition", "template_args", "pattern",
      "is_template", "is_implicit_instantiation", "is_lambda", "attrs"] fun fs => do
    return {
      name := ← fs.required "name" .text
      scope := ← fs.required "context" ScopeId.decoder
      location := ← fs.required "location" Location.decoder
      tag := ← fs.required "tag" RecordTag.decoder
      definition := ← fs.withDefault "definition" (.optional RecordDefinition.decoder) none
      templateArgs := ← fs.withDefault "template_args" (.list TemplateArg.decoder) []
      pattern := ← fs.withDefault "pattern" (.optional RecordId.decoder) none
      isTemplate := ← fs.withDefault "is_template" .bool false
      isImplicitInstantiation := ← fs.withDefault "is_implicit_instantiation" .bool false
      isLambda := ← fs.withDefault "is_lambda" .bool false
      attributes := ← fs.withDefault "attrs" AttributeSet.decoder .empty }

end RecordDecl

-- ============================================================ functions

namespace FunctionKind

/-- The kind of a function. A constructor says whether it copies or moves. -/
def toJson : FunctionKind → Json
  | free => .ofString "Free"
  | method => .ofString "Method"
  | constructor copyOrMove =>
    .tagged "Constructor" (.record [("copy_or_move", .bool copyOrMove)])
  | destructor => .ofString "Destructor"
  | copyAssign => .ofString "CopyAssign"
  | moveAssign => .ofString "MoveAssign"
  | conversion => .ofString "Conversion"

/-- Reads what a constructor says. -/
def constructorDecoder : Decoder FunctionKind :=
  .struct ["copy_or_move"] fun fs => do
    return .constructor (← fs.required "copy_or_move" .bool)

/-- Reads the kind of a function. -/
def decoder : Decoder FunctionKind :=
  .variant fun name content =>
    match name with
    | "Free" => content.nothing free
    | "Method" => content.nothing method
    | "Constructor" => content.holding constructorDecoder
    | "Destructor" => content.nothing destructor
    | "CopyAssign" => content.nothing copyAssign
    | "MoveAssign" => content.nothing moveAssign
    | "Conversion" => content.nothing conversion
    | _ => none

end FunctionKind

namespace OverloadedOperator

/-- An operator that is overloaded, by its name or, if it has no case of its own, by its
spelling. -/
def toJson : OverloadedOperator → Json
  | call => .ofString "Call"
  | star => .ofString "Star"
  | arrow => .ofString "Arrow"
  | assign => .ofString "Assign"
  | subscript => .ofString "Subscript"
  | other spelling => .tagged "Other" (.ofString spelling)

/-- Reads an operator. -/
def decoder : Decoder OverloadedOperator :=
  .variant fun name content =>
    match name with
    | "Call" => content.nothing call
    | "Star" => content.nothing star
    | "Arrow" => content.nothing arrow
    | "Assign" => content.nothing assign
    | "Subscript" => content.nothing subscript
    | "Other" => content.holding (.map other .text)
    | _ => none

end OverloadedOperator

namespace FunctionDecl

/-- A function, with its parameters and its body by slot. -/
def toJson (f : FunctionDecl) : Json :=
  .record [("name", .ofString f.name), ("context", f.scope.toJson),
    ("location", f.location.toJson), ("kind", f.kind.toJson),
    ("operator", .ofOption OverloadedOperator.toJson f.operator),
    ("parent", .ofOption RecordId.toJson f.parent), ("is_const", .bool f.isConst),
    ("is_static", .bool f.isStatic), ("is_virtual", .bool f.isVirtual),
    ("is_defaulted", .bool f.isDefaulted), ("is_deleted", .bool f.isDeleted),
    ("params", .ofList VariableId.toJson f.params), ("ret", f.ret.toJson),
    ("body", .ofOption StmtId.toJson f.body), ("pattern", .ofOption FunctionId.toJson f.pattern),
    ("attrs", f.attributes.toJson)]

/-- Reads a function. All but its name, scope, location, kind and result may be missing. -/
def decoder : Decoder FunctionDecl :=
  .struct ["name", "context", "location", "kind", "operator", "parent", "is_const", "is_static",
      "is_virtual", "is_defaulted", "is_deleted", "params", "ret", "body", "pattern",
      "attrs"] fun fs => do
    return {
      name := ← fs.required "name" .text
      scope := ← fs.required "context" ScopeId.decoder
      location := ← fs.required "location" Location.decoder
      kind := ← fs.required "kind" FunctionKind.decoder
      operator := ← fs.withDefault "operator" (.optional OverloadedOperator.decoder) none
      parent := ← fs.withDefault "parent" (.optional RecordId.decoder) none
      isConst := ← fs.withDefault "is_const" .bool false
      isStatic := ← fs.withDefault "is_static" .bool false
      isVirtual := ← fs.withDefault "is_virtual" .bool false
      isDefaulted := ← fs.withDefault "is_defaulted" .bool false
      isDeleted := ← fs.withDefault "is_deleted" .bool false
      params := ← fs.withDefault "params" (.list VariableId.decoder) []
      ret := ← fs.required "ret" QualifiedType.decoder
      body := ← fs.withDefault "body" (.optional StmtId.decoder) none
      pattern := ← fs.withDefault "pattern" (.optional FunctionId.decoder) none
      attributes := ← fs.withDefault "attrs" AttributeSet.decoder .empty }

end FunctionDecl

-- ============================================================ variables

namespace VariableKind

/-- The kinds of variables. -/
def all : List VariableKind := [localVar, param, catchParam, global, staticLocal]

/-- The name of a variable's kind in its JSON form. -/
def tag : VariableKind → String
  | localVar => "Local"
  | param => "Param"
  | catchParam => "CatchParam"
  | global => "Global"
  | staticLocal => "StaticLocal"

def toJson (k : VariableKind) : Json := .ofString k.tag

/-- Reads a kind by its name. -/
def decoder : Decoder VariableKind := .oneOf all tag

end VariableKind

namespace VariableDecl

/-- A variable, with its initializer in place and what it belongs to by slot. -/
def toJson (v : VariableDecl) : Json :=
  .record [("name", .ofString v.name), ("ty", v.type.toJson), ("location", v.location.toJson),
    ("kind", v.kind.toJson), ("attrs", v.attributes.toJson),
    ("decl_stmt", .ofOption StmtId.toJson v.declStmt), ("init", .ofOption Expr.toJson v.init),
    ("function", .ofOption FunctionId.toJson v.function)]

/-- Reads a variable. Its attributes, its initializer and what it belongs to may be missing. -/
def decoder : Decoder VariableDecl :=
  .struct ["name", "ty", "location", "kind", "attrs", "decl_stmt", "init", "function"]
      fun fs => do
    return {
      name := ← fs.required "name" .text
      type := ← fs.required "ty" QualifiedType.decoder
      location := ← fs.required "location" Location.decoder
      kind := ← fs.required "kind" VariableKind.decoder
      attributes := ← fs.withDefault "attrs" AttributeSet.decoder .empty
      declStmt := ← fs.withDefault "decl_stmt" (.optional StmtId.decoder) none
      init := ← fs.withDefault "init" (.optional Expr.decoder) none
      function := ← fs.withDefault "function" (.optional FunctionId.decoder) none }

end VariableDecl

-- ============================================================ units

namespace TranslationUnit

/-- A unit, table by table. -/
def toJson (u : TranslationUnit) : Json :=
  .record [("files", .ofList SourceFile.toJson u.files.toList), ("types", u.types.toJson),
    ("contexts", .ofList Scope.toJson u.scopes.toList),
    ("records", .ofList RecordDecl.toJson u.records.toList),
    ("functions", .ofList FunctionDecl.toJson u.functions.toList),
    ("vars", .ofList VariableDecl.toJson u.vars.toList),
    ("stmts", .ofList Stmt.toJson u.statements.toList)]

/-- Reads a table from the array of its entries. -/
def tableDecoder {α : Type} (d : Decoder α) : Decoder (Array α) := .map List.toArray (.list d)

/-- Reads a unit. Only the scopes have to be there. -/
def decoder : Decoder TranslationUnit :=
  .struct ["files", "types", "contexts", "records", "functions", "vars", "stmts"] fun fs => do
    return {
      files := ← fs.withDefault "files" (tableDecoder SourceFile.decoder) #[]
      types := ← fs.withDefault "types" TypeTable.decoder .empty
      scopes := ← fs.required "contexts" (tableDecoder Scope.decoder)
      records := ← fs.withDefault "records" (tableDecoder RecordDecl.decoder) #[]
      functions := ← fs.withDefault "functions" (tableDecoder FunctionDecl.decoder) #[]
      vars := ← fs.withDefault "vars" (tableDecoder VariableDecl.decoder) #[]
      statements := ← fs.withDefault "stmts" (tableDecoder Stmt.decoder) #[] }

end TranslationUnit

end SafeDialect
