import VisitorGen.Json.Value
import VisitorGen.Json.Quoted
import VisitorGen.Json.Decimal

/-! Writing JSON values: compact, without any space, and laid out, with one item or
member a line and two spaces of indentation for each level. Members are written in the
order in which the object holds them. -/
namespace VisitorGen.Json

namespace Number

def chars : Number → List Char
  | natural n => Nat.toDigits 10 n
  | negative n => '-' :: Nat.toDigits 10 n
  | decimal x => Decimal.chars x

end Number

namespace Value

def booleanChars (b : Bool) : List Char :=
  if b then ['t', 'r', 'u', 'e'] else ['f', 'a', 'l', 's', 'e']

mutual

def compactChars : Value → List Char
  | .null => ['n', 'u', 'l', 'l']
  | .boolean b => booleanChars b
  | .number n => n.chars
  | .string s => quotedChars s.toList
  | .array items => '[' :: compactItems items ++ [']']
  | .object members => '{' :: compactMembers members ++ ['}']

/-- The items with a comma between any two. -/
def compactItems : List Value → List Char
  | [] => []
  | [item] => item.compactChars
  | item :: next :: rest => item.compactChars ++ ',' :: compactItems (next :: rest)

def compactMembers : List (String × Value) → List Char
  | [] => []
  | [(key, value)] => quotedChars key.toList ++ ':' :: value.compactChars
  | (key, value) :: next :: rest =>
    quotedChars key.toList ++ ':' :: value.compactChars ++ ',' :: compactMembers (next :: rest)

end

/-- The text without any space. -/
def compact (v : Value) : String := String.ofList v.compactChars

/-- A new line at the given level of nesting. -/
def lineStart (level : Nat) : List Char := '\n' :: List.replicate (2 * level) ' '

mutual

def prettyChars (level : Nat) : Value → List Char
  | .null => ['n', 'u', 'l', 'l']
  | .boolean b => booleanChars b
  | .number n => n.chars
  | .string s => quotedChars s.toList
  | .array [] => ['[', ']']
  | .array items => '[' :: prettyItems (level + 1) items ++ lineStart level ++ [']']
  | .object [] => ['{', '}']
  | .object members => '{' :: prettyMembers (level + 1) members ++ lineStart level ++ ['}']

/-- The items, each on a line of its own, with a comma after all but the last. -/
def prettyItems (level : Nat) : List Value → List Char
  | [] => []
  | [item] => lineStart level ++ item.prettyChars level
  | item :: next :: rest =>
    lineStart level ++ item.prettyChars level ++ ',' :: prettyItems level (next :: rest)

def prettyMembers (level : Nat) : List (String × Value) → List Char
  | [] => []
  | [(key, value)] =>
    lineStart level ++ quotedChars key.toList ++ ':' :: ' ' :: value.prettyChars level
  | (key, value) :: next :: rest =>
    lineStart level ++ quotedChars key.toList ++ ':' :: ' ' :: value.prettyChars level ++
      ',' :: prettyMembers level (next :: rest)

end

/-- The text laid out over lines. -/
def pretty (v : Value) : String := String.ofList (v.prettyChars 0)

end Value
end VisitorGen.Json
