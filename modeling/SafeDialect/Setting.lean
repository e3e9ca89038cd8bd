/-
The setting of a check: a unit, a configuration, and the namespaces trusted in them.

A namespace tagged as memory unsafe is trusted with everything in it, and so is a configured one.
Trust goes by name: a name is trusted if it starts with a trusted namespace followed by `::`.
-/
import SafeDialect.Config.Options
import SafeDialect.Names.Qualified

namespace SafeDialect

structure Setting where
  unit : TranslationUnit
  config : Config
  /-- What the names in trusted namespaces start with, each once. -/
  trusted : List String

/-- The namespaces of a unit that are tagged as memory unsafe, by qualified name. -/
def TranslationUnit.taggedNamespaces (u : TranslationUnit) : Result (List String) := do
  let tagged := u.scopeIds.filter fun id =>
    match u.scopes[id.index]? with
    | some s => s.kind == .nameSpace && s.attributes.contains .memoryUnsafe
    | none => false
  tagged.mapM u.scopeName

namespace Setting

/-- The setting of a unit and a configuration. -/
def of (unit : TranslationUnit) (config : Config) : Result Setting := do
  let tagged ← unit.taggedNamespaces
  let starts := (tagged ++ config.options.unsafeNamespaces).map (· ++ "::")
  return ⟨unit, config, starts.foldl (fun acc start => acc.insert start) []⟩

def names (s : Setting) : Vocabulary := s.config.vocabulary

/-- Whether a name lies in a trusted namespace. -/
def isTrustedName (s : Setting) (name : String) : Bool :=
  s.trusted.any fun start => start.toList.isPrefixOf name.toList

/-- Library types that are safe by name. Smart pointers, nullable pointers and awaitables are
never safe by name: they have rules of their own. -/
def isSafeTypeName (s : Setting) (name : String) : Bool :=
  !name.isEmpty && !s.names.isPrivileged name
    && (s.isTrustedName name || s.config.library.isSafeType name)

/-- Library functions that are safe to call by name. -/
def isSafeFunctionName (s : Setting) (name : String) : Bool :=
  s.names.builtinSafeFunctions.contains name || s.isTrustedName name
    || s.config.library.isSafeFunction name

-- ============================================================ user code

/-- Whether a scope or one around it is tagged to be checked as user code. -/
def isTaggedUserCode (s : Setting) : (steps : Nat) → Option ScopeId → Result Bool
  | _, none => .ok false
  | 0, some _ => .error .endless
  | steps + 1, some id =>
    match s.unit.scope id with
    | .error fault => .error fault
    | .ok scope =>
      if scope.attributes.contains .checkAsUserCode then .ok true
      else s.isTaggedUserCode steps scope.parent

def inUserCodeScope (s : Setting) (id : ScopeId) : Result Bool :=
  s.isTaggedUserCode (s.unit.scopes.size + 1) (some id)

/-- User code is what does not stand in a system file, or is tagged as user code. -/
def isUserCode (s : Setting) (loc : Location) (scope : ScopeId) : Result Bool :=
  if s.unit.isSystemLocation loc then s.inUserCodeScope scope else return true

def isSystemRecord (s : Setting) (id : RecordId) : Result Bool := do
  let r ← s.unit.record id
  return !(← s.isUserCode r.location r.scope)

end Setting

end SafeDialect
