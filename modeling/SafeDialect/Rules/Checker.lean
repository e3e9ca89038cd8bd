/-
Running rules over a unit.

The rules of a run share one ledger and write into one journal, one rule after the other.
-/
import SafeDialect.Rules.Declarations
import SafeDialect.Rules.Flows

namespace SafeDialect

namespace Rule

/-- Runs one rule over the unit of a setting. -/
def run (s : Setting) : Rule → Check PUnit
  | recordDecl => s.checkRecords
  | varDecl => s.checkVariables
  | rawPointerAssignment => s.checkAssignments
  | returnValue => s.checkReturns
  | mayExtend => s.checkExtensions
  | determinism => s.checkDeterminism

/-- Runs rules one after the other, each under its name. -/
def runAll (s : Setting) : List Rule → Check PUnit
  | [] => return ⟨⟩
  | rule :: rest => do
    modify fun r => { r with journal := r.journal.setRule rule.name }
    rule.run s
    runAll s rest

end Rule

/-- The rules of a check: those that were chosen, or the default. -/
def Config.rules (config : Config) : (chosen : Option (List Rule)) → List Rule
  | some chosen => Rule.selection chosen
  | none => Rule.default config.options.determinism

/-- The findings of rules on a unit. -/
def TranslationUnit.check (u : TranslationUnit) (config : Config) (rules : List Rule) :
    Result Journal := do
  let s ← Setting.of u config
  let (_, run) ← (Rule.runAll s rules).run .start
  return run.journal

end SafeDialect
