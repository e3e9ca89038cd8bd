/-
The command line program: files on disk, the report on standard output, failures on standard error.
-/
import SafeDialect.CommandLine.Run

namespace SafeDialect

/-- Access to the files on disk. -/
def diskAccess : FileAccess IO where
  readText path := do
    try
      return String.fromUTF8? (← IO.FS.readBinFile path)
    catch _ => return none
  isFile path := do
    try
      let place ← IO.FS.realPath path
      return (← place.metadata).type == .file
    catch _ => return false

end SafeDialect

open SafeDialect in
/-- Runs the checker on its arguments. -/
def main (args : List String) : IO UInt32 := do
  let outcome ← runArguments diskAccess args
  IO.print outcome.output
  match outcome.failure with
  | some failure =>
    IO.eprintln failure.message
    match failure.help? with
    | some help => IO.eprintln help
    | none => pure ()
  | none => if outcome.status ≠ 0 then IO.eprintln "the arguments are not understood" else pure ()
  return outcome.status.toUInt32
