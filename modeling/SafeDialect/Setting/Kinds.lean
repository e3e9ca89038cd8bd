/-
Kinds of types and functions, as a setting tells them.

A record that is declared without definition takes the definition of the template it was made
from. Names are always those of the record as it is used.
-/
import SafeDialect.Setting

namespace SafeDialect.Setting

/-- The type with its synonyms followed. -/
def canonical (s : Setting) (t : QualifiedType) : Result QualifiedType := s.unit.types.canonical t

/-- The layer of the canonical type. -/
def shape (s : Setting) (t : QualifiedType) : Result TypeShape := s.unit.types.canonicalShape t

-- ============================================================ records behind types

/-- The record that a type is, if it is one. -/
def recordOf (s : Setting) (t : QualifiedType) : Result (Option RecordId) := do
  match ← s.shape t with
  | .record id => return some id
  | _ => return none

/-- The record that holds the definition: the record itself, or its template. -/
def definedRecord (s : Setting) (id : RecordId) : Result (Option RecordId) := do
  let r ← s.unit.record id
  if r.isDefined then return some id
  else
    match r.pattern with
    | none => return none
    | some pattern => return if (← s.unit.record pattern).isDefined then some pattern else none

/-- The record that holds the definition of what a type is. -/
def definedRecordOf (s : Setting) (t : QualifiedType) : Result (Option RecordId) := do
  match ← s.recordOf t with
  | some id => s.definedRecord id
  | none => return none

/-- The defined union that a type is. -/
def unionRecord (s : Setting) (t : QualifiedType) : Result (Option RecordId) := do
  match ← s.definedRecordOf t with
  | some id => return if (← s.unit.record id).isUnion then some id else none
  | none => return none

/-- The template argument of a type at a position, if it is a type. -/
def templateArg (s : Setting) (t : QualifiedType) (i : Nat) : Result (Option QualifiedType) := do
  match ← s.recordOf t with
  | some id =>
    match (← s.unit.record id).templateArgs[i]? with
    | some (.type arg) => return some (← s.canonical arg)
    | _ => return none
  | none => return none

/-- The pointee of a raw pointer, or the first argument of a wrapper. -/
def pointee (s : Setting) (t : QualifiedType) : Result (Option QualifiedType) := do
  match ← s.shape t with
  | .pointer p => return some (← s.canonical p)
  | _ => s.templateArg t 0

-- ============================================================ kinds of types

/-- The qualified name of the record that a type is, and else the empty name. -/
def typeName (s : Setting) (t : QualifiedType) : Result String := s.unit.typeName t

/-- Whether a type is a pointer of the language itself. -/
def isRawPointer (s : Setting) (t : QualifiedType) : Result Bool := do
  return (← s.shape t).isPointer

def isReference (s : Setting) (t : QualifiedType) : Result Bool := do
  return (← s.shape t).isReference

/-- Whether a type is a smart pointer by name. -/
def isSafePtr (s : Setting) (t : QualifiedType) : Result Bool := do
  return s.names.isSafePtr (← s.typeName t)

/-- Whether it is one that owns. -/
def isOwningPtr (s : Setting) (t : QualifiedType) : Result Bool := do
  return s.names.isOwningPtr (← s.typeName t)

/-- Whether it is a nullable pointer by name. -/
def isNullablePtr (s : Setting) (t : QualifiedType) : Result Bool := do
  return s.names.isNullablePtr (← s.typeName t)

/-- Awaitable by name or by attribute. -/
def isAwaitable (s : Setting) (t : QualifiedType) : Result Bool := do
  match ← s.recordOf t with
  | some id =>
    let name ← s.unit.recordName id
    let r ← s.unit.record id
    return Vocabulary.awaitable.contains name || r.has .awaitable
  | none => return false

/-- Whether it is the closure of a lambda. -/
def isLambda (s : Setting) (t : QualifiedType) : Result Bool := do
  match ← s.recordOf t with
  | some id => return (← s.unit.record id).isLambda
  | none => return false

def isStdFunction (s : Setting) (t : QualifiedType) : Result Bool := do
  return Vocabulary.stdFunction.contains (← s.typeName t)

/-- Whether it is text that is fixed in the program. -/
def isStringLiteral (s : Setting) (t : QualifiedType) : Result Bool := do
  return Vocabulary.stringLiteral.contains (← s.typeName t)

def isBasicString (s : Setting) (t : QualifiedType) : Result Bool := do
  return s.names.basicString.contains (← s.typeName t)

/-- Whether a type is one of characters. -/
def isCharacter (s : Setting) (t : QualifiedType) : Result Bool := do
  match ← s.shape t with
  | .builtin kind => return kind.isCharacter
  | _ => return false

/-- Whether it is a pointer to characters or an array of them. -/
def isCharPointerOrArray (s : Setting) (t : QualifiedType) : Result Bool := do
  match ← s.shape t with
  | .pointer element | .array element _ => s.isCharacter element
  | _ => return false

/-- Defined, with neither fields nor bases. -/
def isEmptyClass (s : Setting) (t : QualifiedType) : Result Bool := do
  match ← s.definedRecordOf t with
  | some id => return (← s.unit.record id).isEmpty
  | none => return false

/-- Whether a record is a node base or has one among its bases, looking at no more than so many
generations. -/
def derivesFromNodeWithin (s : Setting) : (generations : Nat) → RecordId → Result Bool
  | 0, _ => .error .endless
  | generations + 1, id => do
    let name ← s.unit.recordName id
    if Vocabulary.nodeBase.contains name then return true
    else
      let r ← s.unit.record id
      r.bases.anyM fun base => do
        match ← s.recordOf base.type with
        | some parent => s.derivesFromNodeWithin generations parent
        | none => return false

/-- Whether a record is a node base or derives from one. -/
def derivesFromNode (s : Setting) (id : RecordId) : Result Bool :=
  s.derivesFromNodeWithin (s.unit.records.size + 1) id

/-- Whether a type is a node, by itself or through its bases. -/
def isNodeType (s : Setting) (t : QualifiedType) : Result Bool := do
  match ← s.recordOf t with
  | some id => s.derivesFromNode id
  | none => return false

/-- The flags of a type with their names, in the order in which they are listed. -/
def typeFlags (s : Setting) (t : QualifiedType) : List (String × Result Bool) :=
  [("canonical", s.unit.types.isCanonical t),
    ("raw_pointer", s.isRawPointer t),
    ("reference", s.isReference t),
    ("safe_ptr", s.isSafePtr t),
    ("owning_ptr", s.isOwningPtr t),
    ("nullable_ptr", s.isNullablePtr t),
    ("awaitable", s.isAwaitable t),
    ("lambda", s.isLambda t),
    ("std_function", s.isStdFunction t),
    ("string_literal", s.isStringLiteral t),
    ("basic_string", s.isBasicString t),
    ("char_pointer_or_array", s.isCharPointerOrArray t),
    ("empty_class", s.isEmptyClass t),
    ("node_base", s.isNodeType t)]

-- ============================================================ kinds of functions

/-- Library functions that are safe to call: accessors of smart pointers, and those safe by
name. -/
def isSafeFunction (s : Setting) (id : FunctionId) : Result Bool := do
  let f ← s.unit.function id
  let isAccessor ← match f.parent with
    | some parent => do
      let owner ← s.unit.recordName parent
      pure ((s.names.isSafePtr owner || s.names.isNullablePtr owner)
        && Vocabulary.safePtrMethods.contains f.name)
    | none => pure false
  if isAccessor then return true
  else return s.isSafeFunctionName (← s.unit.functionName id)

/-- Functions without side effect: tagged so, themselves or by their template, moves and forwards,
and constant methods of a record whose constant methods are. -/
def isPure (s : Setting) (id : FunctionId) : Result Bool := do
  let f ← s.unit.function id
  let made := f.pattern.getD id
  let name ← s.unit.functionName made
  if Vocabulary.moveOrForward.contains name then return true
  else
    let pattern ← s.unit.function made
    if pattern.has .noSideEffect || f.has .noSideEffect then return true
    else
      match pattern.parent with
      | some parent =>
        if pattern.isConst then return (← s.unit.record parent).has .noSideEffectWhenConst
        else return false
      | none => return false

/-- The call operators of a record. -/
def callOperators (s : Setting) (id : RecordId) : Result (List FunctionId) := do
  let r ← s.unit.record id
  r.methods.filterM fun m => return (← s.unit.function m).operator == some .call

end SafeDialect.Setting
