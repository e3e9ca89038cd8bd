/-
Findings: what a check has to say, how loud, and under which rule.

A *remark* is a message at a place. A *voice* decides whether remarks get out and how loud: the
first one at the voice's level, every later one as a note to it; a silent voice lets nothing out. A
fault of the checker itself is always an error and does not use up the level. A *journal* collects
remarks as findings of the rule that is running.
-/
import SafeDialect.Source

namespace SafeDialect

/-- How serious a remark is. -/
inductive Severity where
  | error
  | warning
  | note
  deriving DecidableEq

namespace Severity

/-- All severities, the worst first. -/
def all : List Severity := [error, warning, note]

/-- The word for a severity. -/
def name : Severity → String
  | error => "error"
  | warning => "warning"
  | note => "note"

end Severity

/-- A message at a place. -/
structure Remark where
  location : Location
  message : String
  severity : Severity
  deriving DecidableEq

/-- The message about an expression that the checker does not know. -/
def internalErrorMessage : String := "internal checker error, please report"

/-- How remarks get out. -/
structure Voice where
  /-- The severity of the next remark, or `none` if the voice is silent. -/
  level : Option Severity
  /-- What has been said, in order. -/
  said : List Remark
  deriving DecidableEq

namespace Voice

/-- A voice that lets nothing out. -/
def silent : Voice := ⟨none, []⟩

/-- A voice that has said nothing yet. -/
def speaking (level : Severity) : Voice := ⟨some level, []⟩

/-- Whether a voice lets nothing out. -/
def isSilent (v : Voice) : Bool := v.level.isNone

/-- Says something, at the level of the voice if it is the first thing and as a note if it is
not. -/
def say (v : Voice) (location : Location) (message : String) : Voice :=
  match v.level with
  | some level => ⟨some .note, v.said ++ [⟨location, message, level⟩]⟩
  | none => v

/-- Says that the checker itself failed. This is an error at any level, and the level stays for the
remark that comes next. -/
def sayInternalError (v : Voice) (location : Location) : Voice :=
  match v.level with
  | some _ => { v with said := v.said ++ [⟨location, internalErrorMessage, .error⟩] }
  | none => v

end Voice

/-- A remark under the rule that made it. -/
structure Finding where
  location : Location
  message : String
  severity : Severity
  rule : String
  deriving DecidableEq

/-- The findings so far, and the rule that is running. -/
structure Journal where
  rule : String
  findings : List Finding
  deriving DecidableEq

namespace Journal

/-- No findings, under no rule. -/
def empty : Journal := ⟨"", []⟩

instance : Inhabited Journal := ⟨empty⟩

/-- What is reported from here on is under another rule. -/
def setRule (j : Journal) (rule : String) : Journal := { j with rule }

/-- Puts a remark down as a finding of the rule that is running. -/
def report (j : Journal) (r : Remark) : Journal :=
  { j with findings := j.findings ++ [⟨r.location, r.message, r.severity, j.rule⟩] }

/-- Puts down remarks in their order. -/
def reportAll (j : Journal) (remarks : List Remark) : Journal := remarks.foldl report j

/-- The number of errors among the findings; notes and warnings do not count. -/
def errorCount (j : Journal) : Nat := j.findings.countP (·.severity == .error)

/-- Whether there is an error. -/
def hasErrors (j : Journal) : Bool := 0 < j.errorCount

/-- Whether a text occurs in a message. -/
def mentions (j : Journal) (text : String) : Bool :=
  j.findings.any fun f => occursIn text.toList f.message.toList
where
  occursIn (text : List Char) : List Char → Bool
    | [] => text.isEmpty
    | c :: cs => text.isPrefixOf (c :: cs) || occursIn text cs

end Journal

end SafeDialect
