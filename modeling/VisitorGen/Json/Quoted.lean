/-! Quoted text: how JSON writes a string. A quote, a backslash and the characters
below U+0020 are escaped, every other character stands for itself. -/
namespace VisitorGen.Json

/-- The four hexadecimal digits of a number below 65536. -/
def hexQuad (n : Nat) : List Char :=
  [(n / 4096 % 16).digitChar, (n / 256 % 16).digitChar, (n / 16 % 16).digitChar,
    (n % 16).digitChar]

def quotedChar (c : Char) : List Char :=
  if c = '"' then ['\\', '"']
  else if c = '\\' then ['\\', '\\']
  else if c = '\x08' then ['\\', 'b']
  else if c = '\t' then ['\\', 't']
  else if c = '\n' then ['\\', 'n']
  else if c = '\x0c' then ['\\', 'f']
  else if c = '\r' then ['\\', 'r']
  else if c.toNat < 0x20 then '\\' :: 'u' :: hexQuad c.toNat
  else [c]

def quotedChars (cs : List Char) : List Char := '"' :: cs.flatMap quotedChar ++ ['"']

def quote (text : String) : String := String.ofList (quotedChars text.toList)

end VisitorGen.Json
