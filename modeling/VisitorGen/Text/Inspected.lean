import VisitorGen.Text.Classes

/-! The inspected form of a text: between quotes, every character either as itself or,
when it could not be told by looking at it, as an escape. It is for people to read in an
error report and is not a form that anything reads back. -/
namespace VisitorGen.Text

/-- The escape that names a character by its code point. -/
def codePointEscape (c : Char) : List Char :=
  ['\\', 'u', '\x7b'] ++ Nat.toDigits 16 c.toNat ++ ['\x7d']

def inspectedChar (c : Char) : List Char :=
  if c = '"' then ['\\', '"']
  else if c = '\\' then ['\\', '\\']
  else if c = '\n' then ['\\', 'n']
  else if c = '\r' then ['\\', 'r']
  else if c = '\t' then ['\\', 't']
  else if c = '\x00' then ['\\', '0']
  else if isInvisible c then codePointEscape c
  else [c]

def inspect (text : String) : String :=
  String.ofList ('"' :: text.toList.flatMap inspectedChar ++ ['"'])

end VisitorGen.Text
