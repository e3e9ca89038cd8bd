/-
Reading and writing options, and reading the library database.

Options are a closed structure: each may be missing, and no other key is known. They are read from
JSON values and from TOML text.
-/
import SafeDialect.Config.Options
import SafeDialect.Interchange.Type
import SafeDialect.Text.Json.Reader
import SafeDialect.Text.Toml.Reader

namespace SafeDialect

namespace NamingScheme

/-- A scheme by its name. -/
def ofName? (name : String) : Option NamingScheme := all.find? (·.name == name)

/-- A scheme is written as its name. -/
def toJson (s : NamingScheme) : Json := .ofString s.name

/-- Reads a scheme by its name. -/
def decoder : Decoder NamingScheme := .oneOf all name

/-- A scheme by name, or as a table whose one key is the name and maps to nothing. -/
def ofToml? : Toml → Option NamingScheme
  | .text name => ofName? name
  | .table _ [(name, .table _ [])] | .table _ [(name, .array [])] => ofName? name
  | _ => none

end NamingScheme

namespace Options

/-- The keys of the options, in their order. -/
def keys : List String :=
  ["policy", "disable_raw_pointers", "determinism", "unsafe_namespaces", "library_db"]

/-- Options, with every key written. -/
def toJson (o : Options) : Json :=
  .record [("policy", o.policy.toJson), ("disable_raw_pointers", .bool o.disableRawPointers),
    ("determinism", .bool o.determinism),
    ("unsafe_namespaces", .ofList .ofString o.unsafeNamespaces),
    ("library_db", .ofOption .ofString o.libraryDb)]

/-- Reads options. Each key may be missing, and no other may be there. -/
def decoder : Decoder Options :=
  .closedStruct keys fun fs => do
    return {
      policy := ← fs.withDefault "policy" NamingScheme.decoder default.policy
      disableRawPointers := ← fs.withDefault "disable_raw_pointers" .bool default.disableRawPointers
      determinism := ← fs.withDefault "determinism" .bool default.determinism
      unsafeNamespaces :=
        ← fs.withDefault "unsafe_namespaces" (.list .text) default.unsafeNamespaces
      libraryDb := ← fs.withDefault "library_db" (.optional .text) default.libraryDb }

-- ============================================================ options in TOML

def tomlBool? : Toml → Option Bool
  | .bool b => some b
  | _ => none

def tomlText? : Toml → Option String
  | .text t => some t
  | _ => none

/-- A list of texts, none of which may be anything else. -/
def tomlTexts? : Toml → Option (List String)
  | .array items => items.mapM tomlText?
  | _ => none

/-- The value of a key, or the default if the key is missing. -/
def tomlEntry {α : Type} (es : Toml.Entries) (key : String) (read : Toml → Option α) (default : α) :
    Option α :=
  match es.get? key with
  | some v => read v
  | none => some default

/-- The options that a TOML text sets. -/
def ofToml? (text : String) : Option Options := do
  let es ← Toml.parse? text
  if es.all (keys.contains ·.1) then
    return {
      policy := ← tomlEntry es "policy" NamingScheme.ofToml? default.policy
      disableRawPointers := ← tomlEntry es "disable_raw_pointers" tomlBool? default.disableRawPointers
      determinism := ← tomlEntry es "determinism" tomlBool? default.determinism
      unsafeNamespaces := ← tomlEntry es "unsafe_namespaces" tomlTexts? default.unsafeNamespaces
      libraryDb := ← tomlEntry es "library_db" (fun v => (tomlText? v).map some) default.libraryDb }
  else none

end Options

namespace SafeLibrary

/-- An entry of the database: trusted types and functions. -/
def entryDecoder : Decoder (List String × List String) :=
  .closedStruct ["types", "functions"] fun fs => do
    return (← fs.withDefault "types" (.list .text) [],
      ← fs.withDefault "functions" (.list .text) [])

/-- The database that a JSON text describes: an array of entries, taken together. -/
def ofText? (text : String) : Option SafeLibrary := do
  let entries ← (Decoder.list entryDecoder).run (← Json.parse? text)
  return entries.foldl (fun l e => (l.addTypes e.1).addFunctions e.2) empty

/-- The trusted names, in their order. -/
def toJson (l : SafeLibrary) : Json :=
  .record [("types", .ofList .ofString l.types), ("functions", .ofList .ofString l.functions)]

end SafeLibrary

end SafeDialect
