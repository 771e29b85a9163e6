import VisitorGen.Json.Quoted.Scan
import VisitorGen.Json.Numeral

/-! Reading JSON values, to keep them or to skip them.

A kept value may be nested only so deep: `allowance` is how many brackets may still be
opened. A skipped value may be nested to any depth, so its allowance is the length of
the text. -/
namespace VisitorGen.Json

def nullTail : List Char := ['u', 'l', 'l']
def trueTail : List Char := ['r', 'u', 'e']
def falseTail : List Char := ['a', 'l', 's', 'e']

/-- How many brackets may be open at once in a value that is kept. -/
def nestingLimit : Nat := 127

/-- A value without brackets. -/
def scalar : Scan Value
  | [] => .error (.past .endOfValue [])
  | c :: rest =>
    if c = 'n' then do
      let ((), rest) ← word nullTail rest
      return (.null, rest)
    else if c = 't' then do
      let ((), rest) ← word trueTail rest
      return (.boolean true, rest)
    else if c = 'f' then do
      let ((), rest) ← word falseTail rest
      return (.boolean false, rest)
    else if c = '"' then do
      let (s, rest) ← string rest
      return (.string s, rest)
    else if c = '-' ∨ isDigit c then do
      let (n, rest) ← number (c :: rest)
      return (.number n, rest)
    else .error (.past .expectedValue (c :: rest))

/-- One member of an object that is kept, put after those before it. -/
def keepMember (value : Scan Value) (before : List (String × Value)) :
    Scan (List (String × Value)) := fun cs => do
  let (key, rest) ← string cs
  let ((), rest) ← colon rest
  let (v, rest) ← value rest
  return (before ++ [(key, v)], rest)

def arrayBody (value : Scan Value) : Scan Value := fun cs => do
  let (items, rest) ← Bracket.list.enclose (elements .kept value (cs.length + 1) true) cs
  return (.array items, rest)

def objectBody (value : Scan Value) : Scan Value := fun cs => do
  let (members, rest) ←
    Bracket.object.enclose (foldMembers .kept (keepMember value) (cs.length + 1) true []) cs
  return (.object members, rest)

def value : (allowance : Nat) → Scan Value
  | 0, cs =>
    match skipSpace cs with
    | '[' :: rest => .error (.past .nestingTooDeep ('[' :: rest))
    | '\x7b' :: rest => .error (.past .nestingTooDeep ('\x7b' :: rest))
    | rest => scalar rest
  | allowance + 1, cs =>
    match skipSpace cs with
    | '[' :: rest => arrayBody (value allowance) rest
    | '\x7b' :: rest => objectBody (value allowance) rest
    | rest => scalar rest

/-! ### Skipped values -/

def skipScalar : Scan Unit
  | [] => .error (.past .endOfValue [])
  | c :: rest =>
    if c = 'n' then word nullTail rest
    else if c = 't' then word trueTail rest
    else if c = 'f' then word falseTail rest
    else if c = '"' then skipString rest
    else if c = '-' ∨ isDigit c then skipNumber (c :: rest)
    else .error (.past .expectedValue (c :: rest))

def skipMember (skip : Scan Unit) (_ : Unit) : Scan Unit := fun cs => do
  let ((), rest) ← skipString cs
  let ((), rest) ← colon rest
  skip rest

def skipNested : (depth : Nat) → Scan Unit
  | 0, cs => skipScalar (skipSpace cs)
  | depth + 1, cs =>
    match skipSpace cs with
    | '[' :: rest => do
      let (_, rest) ←
        Bracket.list.enclose (elements .skipped (skipNested depth) (rest.length + 1) true) rest
      return ((), rest)
    | '\x7b' :: rest =>
      Bracket.object.enclose
        (foldMembers .skipped (skipMember (skipNested depth)) (rest.length + 1) true ()) rest
    | rest => skipScalar rest

def skip : Scan Unit := fun cs => skipNested cs.length cs

end VisitorGen.Json
