import Regrid.CommandLine
import Regrid.Fault.Message
import Regrid.Scalar.Double
import Regrid.Selfcheck.Text

/-!
# The program

Reads the command line, runs the self-check in double precision, and prints the
report.  Everything that is decided is decided in `Regrid.CommandLine` and
`Regrid.Selfcheck`.
-/
namespace Regrid

/-- The exit code of a self-check that is refused. -/
def refusedCode : Nat := 1

/-- The text for a fault that has none of its own. -/
def Fault.line (f : Fault Float) : String := f.message.getD "The self-check cannot be run."

/-- What is printed, what is reported as an error, and the exit code. -/
def CommandLine.outcome (arguments : List String) : String × String × Nat :=
  match CommandLine.report arguments with
  | .ok (r : Selfcheck.Report Float) => (r.text ++ "\n", "", 0)
  | .error (.fault f) => ("", f.line ++ "\n", refusedCode)
  | .error (.exit code) =>
    if code = CommandLine.helpCode then (CommandLine.usage ++ "\n", "", code)
    else ("", CommandLine.usage ++ "\n", code)

end Regrid

/-- Runs the self-check that the command line asks for. -/
def main (arguments : List String) : IO UInt32 := do
  let (output, errors, code) := Regrid.CommandLine.outcome arguments
  IO.print output
  IO.eprint errors
  return code.toUInt32
