import VisitorGen.Text.Inspected

/-! The guarded form of a text, which is safe to send to a terminal: the control characters
that a terminal may obey are spelled out. Tabs, line ends and all visible characters stand
for themselves, the backslash among them, so that the form is not read back. -/
namespace VisitorGen.Text

/-- The bell, the backspace, the form feed, the escape and the delete character. -/
def isTerminalControl (c : Char) : Bool :=
  c = '\x07' || c = '\x08' || c = '\x0c' || c = '\x1b' || c = '\x7f'

/-- The control characters past ASCII. -/
def isHighControl (c : Char) : Bool := 0x80 ≤ c.toNat && c.toNat ≤ 0x9F

/-- The escape that names an ASCII character by two hexadecimal digits. -/
def shortEscape (c : Char) : List Char :=
  ['\\', 'x', Nat.digitChar (c.toNat / 16), Nat.digitChar (c.toNat % 16)]

def guardedChar (c : Char) : List Char :=
  if isTerminalControl c then shortEscape c
  else if isHighControl c then codePointEscape c
  else [c]

def guarded (text : String) : String := String.ofList (text.toList.flatMap guardedChar)

end VisitorGen.Text
