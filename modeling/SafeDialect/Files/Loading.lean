/-
Loading units and configurations from files.

The library database is, in this order: the one that was asked for, the one that the options name
(relative to their own file), or the nearest one in the directory of the unit or above it. If there
is none, only the built-in names are trusted.
-/
import SafeDialect.Config.Reader
import SafeDialect.Files.Access
import SafeDialect.Interchange.TranslationUnit
import SafeDialect.Program.Consistency
import SafeDialect.Program.Linking

namespace SafeDialect

/-- Why a run ends without success. -/
inductive Failure where
  | unreadableUnit (path : String)
  | malformedUnit (path : String)
  | inconsistentUnit (path : String) (cause : Inconsistency)
  | unreadableConfig (path : String)
  | malformedLibrary (path : String)
  | malformedOptions (path : String)
  | noLibrary (dir : String)
  /-- The check found errors. -/
  | violations (errors : Nat)
  /-- The check stopped without an answer. -/
  | stopped (cause : Fault)
  deriving DecidableEq

namespace Failure

def message : Failure → String
  | unreadableUnit path | unreadableConfig path => s!"could not read `{path}`"
  | malformedUnit path => s!"malformed translation unit `{path}`"
  | inconsistentUnit path _ => s!"inconsistent translation unit `{path}`"
  | malformedLibrary path => s!"malformed safe library database `{path}`"
  | malformedOptions path => s!"malformed checker options `{path}`"
  | noLibrary dir => s!"no safe_library.json found in `{dir}` or any parent directory"
  | violations errors => s!"{errors} safety error(s) found"
  | stopped _ => "the unit could not be checked"

/-- The code by which a failure is known. -/
def code? : Failure → Option String
  | unreadableUnit _ => some "safecheck::load::io"
  | malformedUnit _ => some "safecheck::load::unit"
  | inconsistentUnit .. => some "safecheck::load::invalid"
  | unreadableConfig _ => some "safecheck::config::io"
  | malformedLibrary _ => some "safecheck::config::library_db"
  | malformedOptions _ => some "safecheck::config::options"
  | noLibrary _ => some "safecheck::config::library_db_not_found"
  | violations _ => some "safecheck::check::failed"
  | stopped _ => none

/-- What would help against a failure. -/
def help? : Failure → Option String
  | malformedUnit _ =>
    some "the input must be a translation unit serialized as JSON by the frontend"
  | inconsistentUnit .. => some "the frontend produced ids that do not match the unit's tables"
  | malformedLibrary _ =>
    some ("expected a JSON array of objects with optional \"types\" and \"functions\" "
      ++ "string arrays")
  | malformedOptions _ => some ("known keys: " ++ ", ".intercalate Options.keys)
  | unreadableUnit _ | unreadableConfig _ | noLibrary _ | violations _ | stopped _ => none

/-- The exit status that a failure gives. -/
def exitStatus : Failure → Nat
  | stopped _ => 101
  | _ => 1

end Failure

/-- The name of the library database that is looked for. -/
def libraryFileName : String := "safe_library.json"

/-- The unit that a JSON text describes, or `none` if it describes none. -/
def TranslationUnit.ofText? (text : String) : Option TranslationUnit := do
  TranslationUnit.decoder.run (← Json.parse? text)

namespace FileAccess

variable {m : Type → Type} [Monad m]

/-- A step that may fail. -/
abbrev Load (m : Type → Type) (α : Type) := ExceptT Failure m α

/-- The value, or else a failure. -/
def require {α : Type} (failure : Failure) : Option α → Load m α
  | some a => pure a
  | none => throw failure

/-- A consistent unit with its back links. -/
def loadUnit (fs : FileAccess m) (path : String) : Load m TranslationUnit := do
  let text ← require (.unreadableUnit path) (← fs.readText path)
  let unit ← require (.malformedUnit path) (TranslationUnit.ofText? text)
  match unit.inconsistency? with
  | some cause => throw (.inconsistentUnit path cause)
  | none =>
    match unit.link with
    | .ok linked => return linked
    | .error fault => throw (.stopped fault)

def loadLibrary (fs : FileAccess m) (path : String) : Load m SafeLibrary := do
  let text ← require (.unreadableConfig path) (← fs.readText path)
  require (.malformedLibrary path) (SafeLibrary.ofText? text)

def loadOptions (fs : FileAccess m) (path : String) : Load m Options := do
  let text ← require (.unreadableConfig path) (← fs.readText path)
  require (.malformedOptions path) (Options.ofToml? text)

/-- The first of some paths that names a file. -/
def firstFile? (fs : FileAccess m) : List String → m (Option String)
  | [] => return none
  | path :: rest => do
    if ← fs.isFile path then return some path else fs.firstFile? rest

/-- The library database nearest to a directory: in it or above it. -/
def findLibrary? (fs : FileAccess m) (dir : String) : m (Option String) :=
  fs.firstFile? ((Path.ancestors dir).map (Path.under · libraryFileName))

/-- The library nearest to a directory, which has to be there. -/
def detectLibrary (fs : FileAccess m) (dir : String) : Load m SafeLibrary := do
  fs.loadLibrary (← require (.noLibrary dir) (← fs.findLibrary? dir))

/-- The database that options name, relative to the file they come from. -/
def namedLibrary? (options : Options) (config : Option String) : Option String :=
  options.libraryDb.map fun db =>
    match config.bind Path.parent? with
    | some dir => Path.under dir db
    | none => db

/-- The configuration for a unit at a path. -/
def loadConfig (fs : FileAccess m) (unit : String) (config library : Option String) :
    Load m Config := do
  let options ← match config with
    | some path => fs.loadOptions path
    | none => pure .default
  let chosen ← match library <|> namedLibrary? options config with
    | some path => pure (some path)
    | none => fs.findLibrary? ((Path.parent? unit).getD ".")
  match chosen with
  | some path => return .of options (← fs.loadLibrary path)
  | none => return .of options .empty

end FileAccess

end SafeDialect
