/-
What a check can be told besides the program.
-/
import SafeDialect.Config.SafeLibrary
import SafeDialect.Names.Vocabulary

namespace SafeDialect

/-- The options of a check. -/
structure Options where
  policy : NamingScheme
  /-- Every raw pointer variable is an error. -/
  disableRawPointers : Bool
  /-- The determinism rule runs by default. -/
  determinism : Bool
  /-- Namespaces that are trusted like those tagged as memory unsafe. -/
  unsafeNamespaces : List String
  /-- The path of the library database. -/
  libraryDb : Option String
  deriving DecidableEq

/-- What holds if nothing is said: the names of `safememory`, and no rule on determinism. -/
def Options.default : Options := ⟨.safememory, false, false, [], none⟩

instance : Inhabited Options := ⟨.default⟩

/-- Options together with the trusted names and the vocabulary that they select. -/
structure Config where
  options : Options
  library : SafeLibrary
  vocabulary : Vocabulary
  deriving DecidableEq

/-- The vocabulary follows the naming scheme of the options. -/
def Config.of (options : Options) (library : SafeLibrary) : Config :=
  ⟨options, library, .ofScheme options.policy⟩

/-- Default options, with no name trusted. -/
def Config.default : Config := .of .default .empty

instance : Inhabited Config := ⟨.default⟩

end SafeDialect
