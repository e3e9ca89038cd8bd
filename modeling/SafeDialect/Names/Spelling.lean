/-
How types are spelled in messages.

Synonyms and template parameters are spelled by their names, records by their qualified names with
template arguments in angle brackets, all other types by their parts. A type that does not contain
itself has no chain of parts longer than the type table, so that many layers spell it in full.
-/
import SafeDialect.Names.Qualified

namespace SafeDialect

/-- The spelling of a record without its arguments. -/
def Names.recordSpelling (name : String) : String :=
  if name.isEmpty then "(anonymous)" else name

namespace TranslationUnit

/-- The spelling of a template argument, given that of types. -/
def argSpelling (spell : QualifiedType → Result String) : TemplateArg → Result String
  | .type t => spell t
  | .integral value => return value.repr
  | .other text => return text

/-- The spelling of one layer, given that of its parts. -/
def shapeSpelling (u : TranslationUnit) (spell : QualifiedType → Result String) :
    TypeShape → Result String
  | .builtin kind => return kind.spelling
  | .enum name | .dependent name | .synonym name _ | .templateParam name _ _ => return name
  | .pointer pointee => return (← spell pointee) ++ " *"
  | .lvalueReference referent => return (← spell referent) ++ " &"
  | .rvalueReference referent => return (← spell referent) ++ " &&"
  | .array element (some size) => return (← spell element) ++ "[" ++ size.repr ++ "]"
  | .array element none => return (← spell element) ++ "[]"
  | .record id => do
    let r ← u.record id
    let name := Names.recordSpelling (← u.recordName id)
    if r.templateArgs.isEmpty then return name
    else
      let args ← r.templateArgs.mapM (argSpelling spell)
      return name ++ "<" ++ ", ".intercalate args ++ ">"
  | .function ret params => do
    let params ← params.mapM spell
    return (← spell ret) ++ " (" ++ ", ".intercalate params ++ ")"

/-- The spelling of a type with at most so many layers. -/
def spellingWithin (u : TranslationUnit) : (layers : Nat) → QualifiedType → Result String
  | 0, _ => .error .endless
  | layers + 1, t => do
    let shape ← u.types.shape t.id
    let spelled ← u.shapeSpelling (u.spellingWithin layers) shape
    return if t.isConst then "const " ++ spelled else spelled

/-- The spelling of a type. -/
def spelling (u : TranslationUnit) (t : QualifiedType) : Result String :=
  u.spellingWithin (u.types.size + 1) t

end TranslationUnit

end SafeDialect
