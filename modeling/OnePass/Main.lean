-- The program: reads the file that the arguments name and writes what the
-- analysis found.
import OnePass.CommandLine

open OnePass

/-- The text of a file. -/
def readSource (path : String) : IO (Except Unreadable String) := do
  try
    return decodeSource (← IO.FS.readBinFile path)
  catch
    | .noFileOrDirectory .. => return .error .missing
    | .inappropriateType (some _) .. => return .error .notFolder
    | .inappropriateType none .. => return .error .folder
    | .invalidArgument .. => return .error .nameTooLong
    | e => return .error (.other e.toString)

def main (args : List String) : IO UInt32 := do
  match Options.read? args with
  | some o =>
    let output := o.run (← readSource o.path)
    IO.eprint output.err
    IO.print output.out
    return output.exit.toUInt32
  | none =>
    IO.eprintln "usage: onepass [--dump-tokens] [--dump-scopes] [-v | --verbose] [--] <input>"
    return 2
