/-
Qualified names of declarations.

The scopes around a declaration, outermost first, give the segments of its qualified name. The unit
itself and linkage blocks give none, an anonymous scope gives an empty one. A declaration without a
name has no qualified name either: its name is the empty text, which no list of names holds.
-/
import SafeDialect.Program.TranslationUnit

namespace SafeDialect

/-- The text of a path of scopes, each followed by `::`. -/
def Names.qualifier (path : List String) : String :=
  path.foldr (fun segment rest => segment ++ "::" ++ rest) ""

namespace TranslationUnit

/-- The names of the named scopes from a scope outwards, put in front of `inner`. -/
def pathFrom (u : TranslationUnit) : (steps : Nat) → (inner : List String) → Option ScopeId →
    Result (List String)
  | _, inner, none => .ok inner
  | 0, _, some _ => .error .endless
  | steps + 1, inner, some id =>
    match u.scope id with
    | .error fault => .error fault
    | .ok s =>
      u.pathFrom steps (if s.kind.isNamed then s.name.getD "" :: inner else inner) s.parent

/-- The names of the named scopes around what is declared in a scope, outermost first. A chain of
parents with more scopes than the unit has comes back to itself. -/
def path (u : TranslationUnit) (id : ScopeId) : Result (List String) :=
  u.pathFrom (u.scopes.size + 1) [] (some id)

/-- What stands before the name of a declaration in a scope, `a::b::`. -/
def qualifier (u : TranslationUnit) (id : ScopeId) : Result String := do
  return Names.qualifier (← u.path id)

/-- The qualified name of what is declared in a scope by a name. -/
def qualifiedName (u : TranslationUnit) (id : ScopeId) (name : String) : Result String :=
  if name.isEmpty then return "" else do return (← u.qualifier id) ++ name

/-- The qualified name of a scope itself, empty if it has no name or no scope around it. -/
def scopeName (u : TranslationUnit) (id : ScopeId) : Result String := do
  let s ← u.scope id
  match s.parent, s.name with
  | some parent, some name => u.qualifiedName parent name
  | _, _ => return ""

/-- The qualified name of a record; its template arguments are no part of it. -/
def recordName (u : TranslationUnit) (id : RecordId) : Result String := do
  let r ← u.record id
  u.qualifiedName r.scope r.name

def functionName (u : TranslationUnit) (id : FunctionId) : Result String := do
  let f ← u.function id
  u.qualifiedName f.scope f.name

/-- The qualified name of the record that a type is, and the empty text for other types. -/
def typeName (u : TranslationUnit) (t : QualifiedType) : Result String := do
  match ← u.types.canonicalShape t with
  | .record id => u.recordName id
  | _ => return ""

end TranslationUnit

end SafeDialect
