/-
Running an invocation.

The configuration is loaded before the unit. A report is printed also if the check fails.
-/
import SafeDialect.CommandLine.Arguments
import SafeDialect.Files.Loading
import SafeDialect.Report.Render
import SafeDialect.Rules.Checker

namespace SafeDialect

/-- How a run ends. -/
structure Outcome where
  output : String
  failure : Option Failure
  status : Nat
  deriving DecidableEq

namespace Outcome

def success (output : String) : Outcome := ⟨output, none, 0⟩

def failing (output : String) (failure : Failure) : Outcome :=
  ⟨output, some failure, failure.exitStatus⟩

/-- Arguments that are not understood. -/
def misuse : Outcome := ⟨"", none, 2⟩

end Outcome

def versionText : String := "safecheck 0.1.0\n"

/-- The width of the column of rule names. -/
def ruleColumn : Nat := 24

/-- The rules with a word on whether they run by default. -/
def ruleListing : String :=
  String.join (Rule.all.map fun r =>
    r.name ++ String.ofList (List.replicate (ruleColumn - r.name.length) ' ')
      ++ (if (Rule.default false).contains r then "default" else "opt-in") ++ "\n")

/-- The report on a journal. -/
def CheckRequest.report (q : CheckRequest) (u : TranslationUnit) (j : Journal) : String :=
  match q.format with
  | .text => reportText (j.reportLines u)
  | .json => (reportJson q.unit j.errorCount (j.reportLines u)).pretty ++ "\n"

/-- The outcome of a check of a unit. -/
def CheckRequest.outcome (q : CheckRequest) (config : Config) (u : TranslationUnit) : Outcome :=
  let rules := config.rules (if q.rules.isEmpty then none else some q.rules)
  match u.check config rules with
  | .error fault => .failing "" (.stopped fault)
  | .ok journal =>
    if journal.hasErrors then .failing (q.report u journal) (.violations journal.errorCount)
    else .success (q.report u journal)

section

variable {m : Type → Type} [Monad m]

/-- Loads what a check needs and runs it. -/
def CheckRequest.run (fs : FileAccess m) (q : CheckRequest) : m Outcome := do
  let loaded ← ExceptT.run do
    let config ← fs.loadConfig q.unit q.config q.library
    let unit ← fs.loadUnit q.unit
    return (config, unit)
  match loaded with
  | .ok (config, unit) => return q.outcome config unit
  | .error failure => return .failing "" failure

/-- Does what the arguments ask for. -/
def runArguments (fs : FileAccess m) (args : List String) : m Outcome :=
  match Arguments.parse args with
  | .check request => request.run fs
  | .rules => return .success ruleListing
  | .version => return .success versionText
  | .misuse => return .misuse

end

end SafeDialect
