import Decaf.CommandLine.Run

namespace Decaf.CommandLine

/-- The number of a system error, which some calls give with a negative sign. -/
def errorNumber (code : UInt32) : Nat := min code.toNat (0 - code).toNat

def readInput (path : String) : IO (Except ReadError ByteArray) := do
  try
    return .ok (← IO.FS.readBinFile path)
  catch
    | .noFileOrDirectory .. => return .error .notFound
    | .inappropriateType _ code _ =>
      return .error (if errorNumber code = 20 then .notADirectory else .isADirectory)
    | e@(.invalidArgument _ code _) =>
      return .error (if errorNumber code = 36 then .nameTooLong else .other (toString e))
    | e => return .error (.other (toString e))

def runCommand (arguments : List String) : IO UInt32 := do
  let request := readArguments arguments
  let content ← match request with
    | .run options => readInput options.input
    | _ => pure (.error .notFound)
  let outcome := respond request (← IO.getEnv "RUST_LOG") fun _ => content
  IO.print outcome.stdout
  IO.eprint outcome.stderr
  return outcome.exitCode.toUInt32

end Decaf.CommandLine

def main (arguments : List String) : IO UInt32 := Decaf.CommandLine.runCommand arguments
