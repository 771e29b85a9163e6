import VisitorGen.Schema.Decoding
import VisitorGen.Failure

/-! Loading schemas: from a text, and from the bytes of a file. A loaded schema is sound. -/
namespace VisitorGen.Schema

def compile (text : String) : Except Failure Schema := do
  let s ← decoder.read text |>.mapError .json
  s.verify
  return s

/-- The bytes of a file as text. -/
def decodeFile (bytes : ByteArray) : Except Failure String :=
  match String.fromUTF8? bytes with
  | some text => .ok text
  | none => .error (.file .notText)

def load (bytes : ByteArray) : Except Failure Schema := do
  let text ← decodeFile bytes
  compile text

end VisitorGen.Schema
