/-
Findings as text and as a JSON report.
-/
import SafeDialect.Program.TranslationUnit
import SafeDialect.Report.Finding
import SafeDialect.Text.Json.Writer

namespace SafeDialect

/-- A finding with the path of its file. -/
structure ReportLine where
  file : Option String
  offset : Nat
  len : Nat
  severity : Severity
  rule : String
  message : String
  deriving DecidableEq

/-- The line of a report for a finding in a unit. -/
def Finding.reportLine (u : TranslationUnit) (f : Finding) : ReportLine where
  file := (f.location.file.bind u.file?).map (·.path)
  offset := f.location.span.start
  len := f.location.span.len
  severity := f.severity
  rule := f.rule
  message := f.message

/-- The lines of a report for the findings of a journal. -/
def Journal.reportLines (u : TranslationUnit) (j : Journal) : List ReportLine :=
  j.findings.map (·.reportLine u)

namespace ReportLine

/-- A line of text: file, offset, severity, message and rule. Notes are indented. -/
def text (l : ReportLine) : String :=
  (if l.severity = .note then "  " else "") ++ l.file.getD "<unknown>" ++ ":" ++ l.offset.repr
    ++ ": " ++ l.severity.name ++ ": " ++ l.message ++ " [" ++ l.rule ++ "]\n"

def toJson (l : ReportLine) : Json :=
  .record [("file", .ofOption .ofString l.file), ("offset", .ofNat l.offset),
    ("len", .ofNat l.len), ("severity", .ofString l.severity.name), ("rule", .ofString l.rule),
    ("message", .ofString l.message)]

end ReportLine

/-- A report as text. -/
def reportText (lines : List ReportLine) : String := String.join (lines.map (·.text))

/-- A report on an input as JSON. -/
def reportJson (input : String) (errors : Nat) (lines : List ReportLine) : Json :=
  .record [("input", .ofString input), ("errors", .ofNat errors),
    ("findings", .ofList ReportLine.toJson lines)]

end SafeDialect
