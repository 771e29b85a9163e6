import VisitorGen.Integrity.Check
import VisitorGen.Json.Fault

/-! Failures: why something asked for cannot be had. Each has a message for its reader
and an inspected form that shows its parts. -/
namespace VisitorGen

inductive FileError where
  | notFound
  | notDirectory
  | isDirectory
  | nameTooLong
  | notText
deriving DecidableEq, Repr

inductive Failure where
  | file (e : FileError)
  | json (e : Json.ReadError)
  | unknownMode (name : String)
  | missingHeader
  | defect (d : Defect)

namespace FileError

def message : FileError → String
  | notFound => "No such file or directory (os error 2)"
  | notDirectory => "Not a directory (os error 20)"
  | isDirectory => "Is a directory (os error 21)"
  | nameTooLong => "File name too long (os error 36)"
  | notText => "stream did not contain valid UTF-8"

def inspected : FileError → String
  | notFound =>
    "Os \x7b code: 2, kind: NotFound, message: \"No such file or directory\" \x7d"
  | notDirectory =>
    "Os \x7b code: 20, kind: NotADirectory, message: \"Not a directory\" \x7d"
  | isDirectory => "Os \x7b code: 21, kind: IsADirectory, message: \"Is a directory\" \x7d"
  | nameTooLong =>
    "Os \x7b code: 36, kind: InvalidFilename, message: \"File name too long\" \x7d"
  | notText =>
    "Error \x7b kind: InvalidData, message: \"stream did not contain valid UTF-8\" \x7d"

end FileError

namespace Failure

def message : Failure → String
  | file e => "I/O error: " ++ e.message
  | json e => "Schema file error: " ++ e.message
  | unknownMode name => "Unknown mode " ++ name ++ " (expected \"hpp\" or \"cpp\")"
  | missingHeader => "Definition mode requires a header to include"
  | defect d => "Verifier error: " ++ d.message

def inspected : Failure → String
  | file e => "Io(" ++ e.inspected ++ ")"
  | json e => "Json(" ++ e.inspected ++ ")"
  | unknownMode name => "UnknownMode(" ++ Text.inspect name ++ ")"
  | missingHeader => "MissingHeader"
  | defect d => "VerifierError(" ++ Text.inspect d.message ++ ")"

/-- The line with which a failed run ends. -/
def line (f : Failure) : String := "Error: " ++ f.inspected

end Failure

/-- Refuses a schema that is not sound, with its first defect. -/
def Schema.verify (s : Schema) : Except Failure Unit :=
  match s.defect? with
  | none => .ok ()
  | some d => .error (.defect d)

end VisitorGen
