import VisitorGen.Json.Scan

/-! Reading quoted text, from after the opening quote to after the closing one. An
escaped surrogate pair stands for one character; surrogates that are no pair are
refused. Skipped text is only looked over: there a surrogate may stand alone. -/
namespace VisitorGen.Json

def hexValue? (c : Char) : Option Nat :=
  if '0' ≤ c ∧ c ≤ '9' then some (c.toNat - '0'.toNat)
  else if 'a' ≤ c ∧ c ≤ 'f' then some (c.toNat - 'a'.toNat + 10)
  else if 'A' ≤ c ∧ c ≤ 'F' then some (c.toNat - 'A'.toNat + 10)
  else none

/-- The four hexadecimal digits of an escape. Four bytes are taken, digits or not; with
fewer left, the text ends within the string. -/
def hexEscape (cs : List Char) : Except Fault (Nat × List Char) :=
  if byteCount cs < 4 then .error (.here .endOfString [])
  else
    let refused := .error (.placed .invalidEscape (byteCount cs - 4))
    match cs with
    | a :: b :: c :: d :: rest =>
      match hexValue? a, hexValue? b, hexValue? c, hexValue? d with
      | some a, some b, some c, some d => .ok (((a * 16 + b) * 16 + c) * 16 + d, rest)
      | _, _, _, _ => refused
    | _ => refused

def isLeadSurrogate (n : Nat) : Bool := decide (0xD800 ≤ n) && decide (n ≤ 0xDBFF)

def isTrailSurrogate (n : Nat) : Bool := decide (0xDC00 ≤ n) && decide (n ≤ 0xDFFF)

/-- The character that a surrogate pair stands for. -/
def surrogatePair (lead trail : Nat) : Char :=
  Char.ofNat (0x10000 + (lead - 0xD800) * 0x400 + (trail - 0xDC00))

/-- The trailing half of a pair, which has to follow its leading half at once. -/
def trailSurrogate : List Char → Except Fault (Nat × List Char)
  | [] => .error (.here .endOfString [])
  | '\\' :: [] => .error (.here .endOfString [])
  | '\\' :: 'u' :: rest => do
    let (n, rest) ← hexEscape rest
    if isTrailSurrogate n then return (n, rest) else throw (.here .loneSurrogate rest)
  | '\\' :: c :: rest => .error (.past .endOfSurrogate (c :: rest))
  | c :: rest => .error (.past .endOfSurrogate (c :: rest))

/-- The character that a one-letter escape stands for. -/
def shortEscape? (letter : Char) : Option Char :=
  if letter = '"' then some '"'
  else if letter = '\\' then some '\\'
  else if letter = '/' then some '/'
  else if letter = 'b' then some '\x08'
  else if letter = 'f' then some '\x0c'
  else if letter = 'n' then some '\n'
  else if letter = 'r' then some '\r'
  else if letter = 't' then some '\t'
  else none

/-- The rest of an escape, after the backslash. -/
def escape : Scan Char
  | [] => .error (.here .endOfString [])
  | letter :: rest =>
    match shortEscape? letter with
    | some c => .ok (c, rest)
    | none =>
      if letter = 'u' then do
        let (n, rest) ← hexEscape rest
        if isTrailSurrogate n then throw (.here .loneSurrogate rest)
        else if isLeadSurrogate n then
          let (trail, rest) ← trailSurrogate rest
          return (surrogatePair n trail, rest)
        else return (Char.ofNat n, rest)
      else .error (.past .invalidEscape (letter :: rest))

/-- The next character of a quoted text, or none at the closing quote. -/
def character : Scan (Option Char)
  | [] => .error (.here .endOfString [])
  | c :: rest =>
    if c = '"' then .ok (none, rest)
    else if c = '\\' then do
      let (c, rest) ← escape rest
      return (some c, rest)
    else if c.toNat < 0x20 then .error (.past .controlCharacter (c :: rest))
    else .ok (some c, rest)

/-- The characters up to the closing quote, in no more than the given number of steps. -/
def characters : (steps : Nat) → Scan (List Char)
  | 0, cs => .error (.here .endOfString cs)
  | steps + 1, cs => do
    match ← character cs with
    | (none, rest) => return ([], rest)
    | (some c, rest) =>
      let (text, rest) ← characters steps rest
      return (c :: text, rest)

def string : Scan String := fun cs => do
  let (text, rest) ← characters (cs.length + 1) cs
  return (String.ofList text, rest)

/-! ### Skipped text -/

/-- Passes over the rest of an escape, after the backslash. -/
def skipEscape : Scan Unit
  | [] => .error (.here .endOfString [])
  | letter :: rest =>
    if (shortEscape? letter).isSome then .ok ((), rest)
    else if letter = 'u' then do
      let (_, rest) ← hexEscape rest
      return ((), rest)
    else .error (.past .invalidEscape (letter :: rest))

/-- Passes over one character; true at the closing quote. -/
def skipCharacter : Scan Bool
  | [] => .error (.here .endOfString [])
  | c :: rest =>
    if c = '"' then .ok (true, rest)
    else if c = '\\' then do
      let ((), rest) ← skipEscape rest
      return (false, rest)
    else if c.toNat < 0x20 then .error (.here .controlCharacter (c :: rest))
    else .ok (false, rest)

def skipCharacters : (steps : Nat) → Scan Unit
  | 0, cs => .error (.here .endOfString cs)
  | steps + 1, cs => do
    match ← skipCharacter cs with
    | (true, rest) => return ((), rest)
    | (false, rest) => skipCharacters steps rest

def skipString : Scan Unit := fun cs => skipCharacters (cs.length + 1) cs

end VisitorGen.Json
