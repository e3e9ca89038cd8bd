/-
Types of the checked program.

A type is referred to by its slot in the type table together with a `const` flag. What the slot
holds is one layer of the type; the layers below are again references. So no type value is
recursive, equality of layers is decidable, and the table decides what two references share.
-/
import SafeDialect.Source

namespace SafeDialect

/-- The slot of a type in the type table. -/
structure TypeId where
  index : Nat
  deriving DecidableEq

/-- The slot of a record declaration. -/
structure RecordId where
  index : Nat
  deriving DecidableEq

/-- A type together with its top-level `const`. -/
structure QualifiedType where
  id : TypeId
  isConst : Bool
  deriving DecidableEq

namespace QualifiedType

/-- The unqualified type at a slot. -/
def plain (id : TypeId) : QualifiedType := ⟨id, false⟩

def withConst (t : QualifiedType) : QualifiedType := ⟨t.id, true⟩

def withoutConst (t : QualifiedType) : QualifiedType := ⟨t.id, false⟩

end QualifiedType

/-- The built-in types. -/
inductive Builtin where
  | void
  | bool
  | char
  | wchar
  | char16
  | char32
  | short
  | int
  | long
  | longLong
  | uchar
  | ushort
  | uint
  | ulong
  | ulongLong
  | float
  | double
  | longDouble
  | nullPtr
  deriving DecidableEq

namespace Builtin

/-- The source spelling of a built-in type. -/
def spelling : Builtin → String
  | void => "void"
  | bool => "bool"
  | char => "char"
  | wchar => "wchar_t"
  | char16 => "char16_t"
  | char32 => "char32_t"
  | short => "short"
  | int => "int"
  | long => "long"
  | longLong => "long long"
  | uchar => "unsigned char"
  | ushort => "unsigned short"
  | uint => "unsigned int"
  | ulong => "unsigned long"
  | ulongLong => "unsigned long long"
  | float => "float"
  | double => "double"
  | longDouble => "long double"
  | nullPtr => "std::nullptr_t"

/-- The types whose pointers and arrays are character strings. -/
def isCharacter : Builtin → Bool
  | char | wchar | char16 | char32 | uchar => true
  | _ => false

end Builtin

/-- One layer of a type. -/
inductive TypeShape where
  | builtin (kind : Builtin)
  /-- An enumeration, by qualified name. -/
  | enum (name : String)
  | pointer (pointee : QualifiedType)
  | lvalueReference (referent : QualifiedType)
  | rvalueReference (referent : QualifiedType)
  | array (element : QualifiedType) (size : Option Nat)
  | record (id : RecordId)
  /-- A template parameter that has not been instantiated. -/
  | templateParam (name : String) (depth index : Nat)
  /-- A named synonym of another type. -/
  | synonym (name : String) (target : QualifiedType)
  | function (ret : QualifiedType) (params : List QualifiedType)
  /-- A dependent or otherwise unresolved type, by spelling. -/
  | dependent (spelling : String)
  deriving DecidableEq

namespace TypeShape

def isSynonym : TypeShape → Bool
  | synonym .. => true
  | _ => false

def isPointer : TypeShape → Bool
  | pointer _ => true
  | _ => false

def isReference : TypeShape → Bool
  | lvalueReference _ | rvalueReference _ => true
  | _ => false

def isRecord : TypeShape → Bool
  | record _ => true
  | _ => false

/-- The referent of a reference. -/
def referent? : TypeShape → Option QualifiedType
  | lvalueReference t | rvalueReference t => some t
  | _ => none

/-- The pointee of a raw pointer. -/
def pointee? : TypeShape → Option QualifiedType
  | pointer t => some t
  | _ => none

/-- Built-in types and enumerations: values without parts. -/
def isScalar : TypeShape → Bool
  | builtin _ | enum _ => true
  | _ => false

end TypeShape

end SafeDialect
