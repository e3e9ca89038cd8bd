/-
Access to files.

What reads files does so through `FileAccess`, in any monad. A file tree gives access to files that
are held in memory, relative to its root.
-/
import SafeDialect.Files.Path

namespace SafeDialect

/-- What the checker asks of files. -/
structure FileAccess (m : Type → Type) where
  /-- The text of a file, or `none` if it cannot be read or is no text. -/
  readText : String → m (Option String)
  /-- Whether a path names a file. -/
  isFile : String → m Bool

/-- What a path of a tree holds. -/
inductive FileContent where
  | text (value : String)
  /-- Bytes that are no text. -/
  | bytes
  | directory
  deriving DecidableEq

/-- What is held at places. A place is the names on the way to it from the root, without names that
stand for nothing. The root lies in further directories, which go by `..`. -/
structure FileTree where
  entries : List (List String × FileContent)
  deriving DecidableEq

namespace FileTree

/-- The directory that holds a place. -/
def above (place : List String) : List String :=
  match place.getLast? with
  | none | some ".." => place ++ [".."]
  | some _ => place.dropLast

/-- The place that a name leads to from another. -/
def step (place : List String) (name : String) : List String :=
  if Path.isVoid name then place
  else if name = ".." then above place
  else place ++ [name]

/-- The places that names lead through before the last one. -/
def passed (place : List String) : List String → List (List String)
  | [] => []
  | name :: rest => place :: passed (step place name) rest

/-- What is held once a content has been put at a path: every place on the way is a directory, also
one that is left again by `..`. -/
def layOut (path : String) (content : FileContent) : List (List String × FileContent) :=
  let names := Path.pieces path
  (passed [] names).map (·, .directory) ++ [(names.foldl step [], content)]

/-- The tree with the given contents at paths from its root, put there one after the other. -/
def ofList (contents : List (String × FileContent)) : FileTree :=
  ⟨contents.flatMap fun (path, content) => layOut path content⟩

/-- What was put at a place last. -/
def content? (t : FileTree) (place : List String) : Option FileContent :=
  (t.entries.reverse.find? (·.1 == place)).map Prod.snd

/-- Whether a place is a directory. The root and what it lies in always are. -/
def isDirectory (t : FileTree) (place : List String) : Bool :=
  place.all (· == "..") || t.content? place == some .directory

/-- The place that names lead to. All but the last lead into directories. -/
def walk (t : FileTree) : (place : List String) → List String → Option (List String)
  | place, [] => some place
  | place, name :: rest => if t.isDirectory place then t.walk (step place name) rest else none

/-- What a path names. Absolute paths start elsewhere, so the tree does not know them. -/
def lookUp (t : FileTree) (path : String) : Option FileContent :=
  if path.isEmpty || Path.isAbsolute path then none
  else (t.walk [] (Path.pieces path)).bind t.content?

def access (t : FileTree) : FileAccess Id where
  readText path :=
    match t.lookUp path with
    | some (.text value) => some value
    | _ => none
  isFile path :=
    match t.lookUp path with
    | some (.text _) | some .bytes => true
    | _ => false

end FileTree

end SafeDialect
