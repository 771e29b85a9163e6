/-! Bytes shown as text. Bytes that are UTF-8 show their characters; of all else, every
longest run of bytes that could still have begun a character shows as one U+FFFD. -/
namespace VisitorGen.Text

/-- What a byte that begins a character of several bytes asks of those that follow it. -/
structure Lead where
  bits : Nat
  low : Nat
  high : Nat
  more : Nat
deriving DecidableEq, Repr

/-- `low` and `high` bound the second byte; they shut out overlong forms, surrogates and
code points past the last. `more` bytes stand after the second. -/
def Lead.ofByte? (b : Nat) : Option Lead :=
  if 0xC2 ≤ b ∧ b ≤ 0xDF then some ⟨b - 0xC0, 0x80, 0xBF, 0⟩
  else if b = 0xE0 then some ⟨0, 0xA0, 0xBF, 1⟩
  else if b = 0xED then some ⟨0xD, 0x80, 0x9F, 1⟩
  else if 0xE1 ≤ b ∧ b ≤ 0xEF then some ⟨b - 0xE0, 0x80, 0xBF, 1⟩
  else if b = 0xF0 then some ⟨0, 0x90, 0xBF, 2⟩
  else if 0xF1 ≤ b ∧ b ≤ 0xF3 then some ⟨b - 0xF0, 0x80, 0xBF, 2⟩
  else if b = 0xF4 then some ⟨4, 0x80, 0x8F, 2⟩
  else none

/-- The bytes after the second: the character, or U+FFFD before the first misfit. -/
def showRest (bits : Nat) : (more : Nat) → List Nat → Char × List Nat
  | 0, bytes => (Char.ofNat bits, bytes)
  | more + 1, b :: rest =>
    if 0x80 ≤ b ∧ b ≤ 0xBF then showRest (bits * 64 + (b - 0x80)) more rest
    else ('\ufffd', b :: rest)
  | _ + 1, [] => ('\ufffd', [])

/-- The first character that the bytes show, after a first byte that has been taken. -/
def showFirst (b : Nat) (rest : List Nat) : Char × List Nat :=
  if b < 0x80 then (Char.ofNat b, rest)
  else match Lead.ofByte? b, rest with
    | some lead, second :: rest =>
      if lead.low ≤ second ∧ second ≤ lead.high then
        showRest (lead.bits * 64 + (second - 0x80)) lead.more rest
      else ('\ufffd', second :: rest)
    | _, rest => ('\ufffd', rest)

def showBytes : (steps : Nat) → List Nat → List Char
  | steps + 1, b :: rest => (showFirst b rest).1 :: showBytes steps (showFirst b rest).2
  | _, _ => []

def shown (bytes : ByteArray) : String :=
  String.ofList (showBytes bytes.size (bytes.data.toList.map UInt8.toNat))

end VisitorGen.Text
