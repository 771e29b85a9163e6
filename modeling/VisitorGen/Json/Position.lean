/-! Places in a text. Lines count from one, columns are the bytes since the last line
feed, so that the first byte of a line is passed at column one. -/
namespace VisitorGen.Json

structure Position where
  line : Nat
  column : Nat
deriving DecidableEq, Repr

/-- The number of bytes of a text in UTF-8. -/
def byteCount (cs : List Char) : Nat := cs.foldr (fun c n => c.utf8Size + n) 0

namespace Position

def start : Position := ⟨1, 0⟩

/-- The place `count` bytes further on in `cs`. A count may end within a character. -/
def advance : (count : Nat) → (cs : List Char) → Position → Position
  | _, [], p => p
  | 0, _, p => p
  | count + 1, c :: rest, p =>
    if count + 1 < c.utf8Size then ⟨p.line, p.column + count + 1⟩
    else advance (count + 1 - c.utf8Size) rest
      (if c = '\n' then ⟨p.line + 1, 0⟩ else ⟨p.line, p.column + c.utf8Size⟩)
termination_by structural _ cs => cs

end Position
end VisitorGen.Json
