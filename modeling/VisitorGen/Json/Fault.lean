import VisitorGen.Json.Mismatch
import VisitorGen.Json.Position

/-! Faults of reading: what can be wrong with a text that is read as JSON, and where.

While a text is read, a place is known by how many bytes of the text are left. A fault
stands either before what is left or just past its first byte. A mismatch that is found
once a whole record has been read has no place yet: it is loose, and the list or object
that is being read around it gives it one. -/
namespace VisitorGen.Json

inductive Cause where
  | endOfValue
  | endOfList
  | endOfObject
  | endOfString
  | expectedValue
  | expectedWord
  | expectedListComma
  | expectedObjectComma
  | expectedColon
  | keyNotString
  | trailingComma
  | trailingCharacters
  | controlCharacter
  | invalidEscape
  | loneSurrogate
  | endOfSurrogate
  | invalidNumber
  | numberOutOfRange
  | nestingTooDeep
  | mismatch (m : Mismatch)

def Cause.message : Cause → String
  | endOfValue => "EOF while parsing a value"
  | endOfList => "EOF while parsing a list"
  | endOfObject => "EOF while parsing an object"
  | endOfString => "EOF while parsing a string"
  | expectedValue => "expected value"
  | expectedWord => "expected ident"
  | expectedListComma => "expected `,` or `]`"
  | expectedObjectComma => "expected `,` or `\x7d`"
  | expectedColon => "expected `:`"
  | keyNotString => "key must be a string"
  | trailingComma => "trailing comma"
  | trailingCharacters => "trailing characters"
  | controlCharacter => "control character (\\u0000-\\u001F) found while parsing a string"
  | invalidEscape => "invalid escape"
  | loneSurrogate => "lone leading surrogate in hex escape"
  | endOfSurrogate => "unexpected end of hex escape"
  | invalidNumber => "invalid number"
  | numberOutOfRange => "number out of range"
  | nestingTooDeep => "recursion limit exceeded"
  | mismatch m => m.message

inductive Fault where
  | placed (cause : Cause) (left : Nat)
  | loose (m : Mismatch) (rest : List Char)

namespace Fault

/-- A fault before all that is left of the text. -/
def here (cause : Cause) (rest : List Char) : Fault := placed cause (byteCount rest)

/-- A fault just past the first byte of what is left, or at the end of the text. -/
def past (cause : Cause) (rest : List Char) : Fault := placed cause (byteCount rest - 1)

end Fault

/-- Why a text was refused. A mismatch of the outermost value may have no place. -/
structure ReadError where
  cause : Cause
  position? : Option Position

namespace ReadError

def ofFault (text : List Char) : Fault → ReadError
  | .placed cause left =>
    ⟨cause, some (Position.start.advance (byteCount text - left) text)⟩
  | .loose m _ => ⟨.mismatch m, none⟩

def message (e : ReadError) : String :=
  match e.position? with
  | none => e.cause.message
  | some p => e.cause.message ++ " at line " ++ toString p.line ++ " column " ++ toString p.column

/-- The parts of the error. Without a place, line and column are shown as zero. -/
def inspected (e : ReadError) : String :=
  let p := e.position?.getD ⟨0, 0⟩
  "Error(" ++ Text.inspect e.cause.message ++ ", line: " ++ toString p.line ++ ", column: " ++
    toString p.column ++ ")"

end ReadError
end VisitorGen.Json
