/-
Paths as texts.

A path is a sequence of names with slashes between them. Empty names and `.` stand for nothing,
except that a path may start with a `.` of its own. A slash in front makes the path absolute.
-/

namespace SafeDialect.Path

/-- The names between the slashes, as written. -/
def pieces (path : String) : List String := path.splitOn "/"

/-- Names that stand for nothing. -/
def isVoid (piece : String) : Bool := piece = "" || piece = "."

/-- Drops the names at the end that stand for nothing. -/
def trimmed (pieces : List String) : List String := (pieces.reverse.dropWhile isVoid).reverse

def join (pieces : List String) : String := "/".intercalate pieces

def isAbsolute (path : String) : Bool := path.startsWith "/"

/-- All but the last name that stands for something, or `none` if there is no such name. -/
def init? (pieces : List String) : Option (List String) :=
  match trimmed pieces with
  | [] => none
  | names => some (trimmed names.dropLast)

/-- The path without its last name. The empty path and the root have no parent. -/
def parent? (path : String) : Option String :=
  match pieces path with
  | [] => none
  | "" :: rest => if rest.isEmpty then none else (init? rest).map fun names => "/" ++ join names
  | "." :: rest =>
    match init? rest with
    | some names => some (join ("." :: names))
    | none => some ""
  | names => (init? names).map join

/-- The path and its parents, the nearest first, no more than so many. -/
def ancestorsWithin : (limit : Nat) → String → List String
  | 0, _ => []
  | limit + 1, path =>
    path :: match parent? path with
      | some parent => ancestorsWithin limit parent
      | none => []

/-- The path and its parents, the nearest first. A parent is shorter, so there are no more of them
than characters. -/
def ancestors (path : String) : List String := ancestorsWithin (path.length + 1) path

/-- The place of a path as seen from a directory. -/
def under (dir path : String) : String :=
  if isAbsolute path || dir.isEmpty then path
  else if dir.endsWith "/" then dir ++ path
  else dir ++ "/" ++ path

end SafeDialect.Path
