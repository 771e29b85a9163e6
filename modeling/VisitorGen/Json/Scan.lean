import VisitorGen.Json.Fault

/-! Scanning: the punctuation of JSON texts.

A `Scan` reads something off the front of a text and gives it with what is left. White
space may stand before every token. Lists and objects are read piece by piece: is there
another element, is there another key, and at last the closing bracket. A value is
either kept or skipped; a skipped value is only looked over for its form, and there a
comma before the closing bracket counts as a missing value or key. -/
namespace VisitorGen.Json

abbrev Scan (α : Type) := List Char → Except Fault (α × List Char)

/-- What becomes of the value that is being read. -/
inductive Manner where
  | kept
  | skipped
deriving DecidableEq

def isSpace (c : Char) : Bool := c == ' ' || c == '\n' || c == '\t' || c == '\r'

def skipSpace (cs : List Char) : List Char := cs.dropWhile isSpace

/-- The letters of a word whose first letter has been read. -/
def word : List Char → Scan Unit
  | [], cs => .ok ((), cs)
  | _ :: _, [] => .error (.here .endOfValue [])
  | letter :: letters, c :: rest =>
    if c = letter then word letters rest else .error (.past .expectedWord (c :: rest))

/-! ### Lists -/

/-- Either what is left begins with the next piece, or it begins with the bracket that
closes the list or object. -/
inductive Next where
  | more (rest : List Char)
  | stop (rest : List Char)

/-- Whether there is another element. Before all but the first stands a comma. -/
def nextElement (manner : Manner) (first : Bool) (cs : List Char) : Except Fault Next :=
  match skipSpace cs with
  | [] => .error (.past .endOfList [])
  | ']' :: rest => .ok (.stop (']' :: rest))
  | c :: rest =>
    if first then .ok (.more (c :: rest))
    else if c = ',' then
      match manner, skipSpace rest with
      | .kept, ']' :: rest => .error (.past .trailingComma (']' :: rest))
      | _, rest => .ok (.more rest)
    else .error (.past .expectedListComma (c :: rest))

/-- The elements up to the closing bracket, in no more than the given number of steps. -/
def elements (manner : Manner) (item : Scan α) : (steps : Nat) → (first : Bool) → Scan (List α)
  | 0, _, cs => .error (.past .endOfList cs)
  | steps + 1, first, cs => do
    match ← nextElement manner first cs with
    | .stop rest => return ([], rest)
    | .more rest =>
      let (a, rest) ← item rest
      let (as, rest) ← elements manner item steps false rest
      return (a :: as, rest)

/-! ### Objects -/

/-- Whether there is another key. What is left then begins after its opening quote. -/
def nextKey (manner : Manner) (first : Bool) (cs : List Char) : Except Fault Next :=
  match skipSpace cs with
  | [] => .error (.past .endOfObject [])
  | '\x7d' :: rest => .ok (.stop ('\x7d' :: rest))
  | c :: rest =>
    if first then key (c :: rest)
    else if c = ',' then
      match manner, skipSpace rest with
      | .kept, [] => .error (.past .endOfValue [])
      | .kept, '\x7d' :: rest => .error (.past .trailingComma ('\x7d' :: rest))
      | .skipped, [] => .error (.past .endOfObject [])
      | _, rest => key rest
    else .error (.past .expectedObjectComma (c :: rest))
where
  key : List Char → Except Fault Next
    | '"' :: rest => .ok (.more rest)
    | cs => .error (.past .keyNotString cs)

/-- The colon between a key and its value. -/
def colon : Scan Unit := fun cs =>
  match skipSpace cs with
  | [] => .error (.past .endOfObject [])
  | ':' :: rest => .ok ((), rest)
  | cs => .error (.past .expectedColon cs)

/-- Goes through the members up to the closing bracket, in no more than the given number
of steps. `step` reads one member, from after the opening quote of its key, and carries on
what has been gathered so far. -/
def foldMembers (manner : Manner) (step : σ → Scan σ) :
    (steps : Nat) → (first : Bool) → σ → Scan σ
  | 0, _, _, cs => .error (.past .endOfObject cs)
  | steps + 1, first, s, cs => do
    match ← nextKey manner first cs with
    | .stop rest => return (s, rest)
    | .more rest =>
      let (s, rest) ← step s rest
      foldMembers manner step steps false s rest

/-! ### Brackets -/

inductive Bracket where
  | list
  | object

namespace Bracket

/-- The closing bracket. -/
def close : Bracket → Scan Unit
  | list, cs =>
    match skipSpace cs with
    | [] => .error (.past .endOfList [])
    | ']' :: rest => .ok ((), rest)
    | ',' :: rest =>
      match skipSpace rest with
      | ']' :: rest => .error (.past .trailingComma (']' :: rest))
      | rest => .error (.past .trailingCharacters rest)
    | cs => .error (.past .trailingCharacters cs)
  | object, cs =>
    match skipSpace cs with
    | [] => .error (.past .endOfObject [])
    | '\x7d' :: rest => .ok ((), rest)
    | ',' :: rest => .error (.past .trailingComma (',' :: rest))
    | cs => .error (.past .trailingCharacters cs)

/-- How far a list or object reaches for its end when reading it has failed. -/
def reach : Bracket → List Char → List Char
  | list, cs =>
    match skipSpace cs with
    | ']' :: rest => rest
    | ',' :: rest => skipSpace rest
    | cs => cs
  | object, cs =>
    match skipSpace cs with
    | '\x7d' :: rest => rest
    | cs => cs

/-- Gives a loose mismatch its place. -/
def settle (b : Bracket) : Fault → Fault
  | .placed cause left => .placed cause left
  | .loose m rest => .here (.mismatch m) (b.reach rest)

/-- Reads what stands between the brackets, then the closing one. -/
def enclose (b : Bracket) (body : Scan α) : Scan α := fun cs =>
  match body cs with
  | .error fault => .error (b.settle fault)
  | .ok (a, rest) => do
    let ((), rest) ← b.close rest
    return (a, rest)

end Bracket
end VisitorGen.Json
