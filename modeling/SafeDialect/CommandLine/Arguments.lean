/-
The arguments of the command line.

    check <unit> [--config <path>] [--library-db <path>] [--rule <name>]... [--format text|json]
    rules

An option's value follows it, or an equals sign. `-v` and `--verbose` may stand anywhere, and
`--version` or `-V` before the command. After `--` nothing is an option. An option other than
`--rule` is given at most once. Everything else is misuse.
-/
import SafeDialect.Rules.Rule

namespace SafeDialect

inductive ReportFormat where
  | text
  | json
  deriving DecidableEq

/-- What is to be checked, and how. -/
structure CheckRequest where
  unit : String
  config : Option String
  library : Option String
  /-- The chosen rules; none chosen means the default ones. -/
  rules : List Rule
  format : ReportFormat
  deriving DecidableEq

inductive Invocation where
  | check (request : CheckRequest)
  | rules
  | version
  | misuse
  deriving DecidableEq

namespace Arguments

def formatOf? : String → Option ReportFormat
  | "text" => some .text
  | "json" => some .json
  | _ => none

/-- Whether an argument is an option by its form. A single dash is none. -/
def isOption (arg : String) : Bool := arg.startsWith "-" && arg ≠ "-"

/-- Whether an argument asks for more logging. -/
def isVerbose (arg : String) : Bool :=
  arg = "--verbose" || match arg.toList with
    | '-' :: 'v' :: letters => letters.all (· == 'v')
    | _ => false

/-- Whether an argument asks for the version, maybe after asking for more logging. -/
def isVersion (arg : String) : Bool :=
  arg = "--version" || match arg.toList with
    | '-' :: letters => (letters.dropWhile (· == 'v')).head? == some 'V'
    | _ => false

-- ============================================================ arguments of a check

/-- What has been said about a check so far. -/
structure Draft where
  unit : Option String
  config : Option String
  library : Option String
  rules : List Rule
  format : Option ReportFormat

def Draft.empty : Draft := ⟨none, none, none, [], none⟩

/-- Sets what has not been said before. -/
def once {α : Type} (before : Option α) (value : α) : Option (Option α) :=
  if before.isSome then none else some (some value)

/-- A path is not empty. -/
def path? (value : String) : Option String := if value.isEmpty then none else some value

/-- Takes a unit. -/
def Draft.setUnit? (d : Draft) (value : String) : Option Draft := do
  return { d with unit := ← once d.unit (← path? value) }

/-- Takes an option with its value. -/
def Draft.setOption? (d : Draft) (name value : String) : Option Draft :=
  match name with
  | "--config" => do return { d with config := ← once d.config (← path? value) }
  | "--library-db" => do return { d with library := ← once d.library (← path? value) }
  | "--rule" => do return { d with rules := d.rules ++ [← Rule.ofName? value] }
  | "--format" => do return { d with format := ← once d.format (← formatOf? value) }
  | _ => none

/-- Splits an option from a value behind an equals sign. -/
def attached? (arg : String) : Option (String × String) :=
  match arg.toList.span (· ≠ '=') with
  | (name, '=' :: value) => some (String.ofList name, String.ofList value)
  | _ => none

/-- Takes the arguments of a check. -/
def draft? (d : Draft) : List String → Option Draft
  | [] => some d
  | "--" :: rest => rest.foldlM Draft.setUnit? d
  | arg :: rest =>
    if isVerbose arg then draft? d rest
    else if isOption arg then
      match attached? arg with
      | some (name, value) =>
        match d.setOption? name value with
        | some d => draft? d rest
        | none => none
      | none =>
        match rest with
        | value :: rest =>
          if isOption value then none
          else
            match d.setOption? arg value with
            | some d => draft? d rest
            | none => none
        | [] => none
    else
      match d.setUnit? arg with
      | some d => draft? d rest
      | none => none

/-- The request that a draft makes, if it names a unit. -/
def Draft.request? (d : Draft) : Option CheckRequest := do
  return ⟨← d.unit, d.config, d.library, d.rules, d.format.getD .text⟩

/-- Whether only requests for more logging are left, and maybe an idle `--` at the end. -/
def isIdle : List String → Bool
  | [] | ["--"] => true
  | arg :: rest => isVerbose arg && isIdle rest

/-- What the arguments ask for. -/
def parse : List String → Invocation
  | [] => .misuse
  | "check" :: rest =>
    match (draft? .empty rest).bind Draft.request? with
    | some request => .check request
    | none => .misuse
  | "rules" :: rest => if isIdle rest then .rules else .misuse
  | arg :: rest =>
    if isVerbose arg then parse rest
    else if isVersion arg then .version
    else .misuse

end Arguments

end SafeDialect
