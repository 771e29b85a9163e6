import VisitorGen.Command.Filter
import VisitorGen.Command.Run

/-! The command line program: runs the command on the files of the system. Log lines and
errors go to standard error. -/
namespace VisitorGen

/-- The number of a system error, which some calls report negated. -/
def errorNumber (code : UInt32) : UInt32 := if code < 0x80000000 then code else -code

/-- The errors that a path alone may lead to. Any other error ends the program. -/
def fileError (e : IO.Error) : IO FileError :=
  match e with
  | .noFileOrDirectory .. => return .notFound
  | .inappropriateType _ code _ =>
    return if errorNumber code = 20 then .notDirectory else .isDirectory
  | .invalidArgument _ code _ => if errorNumber code = 36 then return .nameTooLong else throw e
  | _ => throw e

def attempt (action : IO α) : IO (Except FileError α) := do
  try return .ok (← action)
  catch e => return .error (← fileError e)

instance : FileAccess IO where
  read path := attempt (IO.FS.readBinFile path)
  write path content := attempt (IO.FS.writeBinFile path content)

def usage : String :=
  "usage: generate MODE [--header H] [-s FILE] [-o FILE] | schema [-s FILE] [-o FILE]"

end VisitorGen

open VisitorGen in
def main (args : List String) : IO UInt32 := do
  let filter := LogFilter.ofText ((← IO.getEnv "RUST_LOG").getD "")
  let answer ← Command.answer args
  (filter.lines answer.events).forM IO.eprintln
  IO.print answer.stdout
  match answer.failure? with
  | some failure => IO.eprintln failure.line
  | none => if answer.exitCode = 2 then IO.eprintln usage
  return answer.exitCode.toUInt32
