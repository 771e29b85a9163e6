import VisitorGen.Json.Scan

/-! Numerals: how JSON writes numbers, and what a numeral is worth.

The form of a numeral is read first; its value is a second matter, so that a numeral can
be passed over without one. A numeral without fraction and exponent that fits 64 bits is
whole. Any other is a double: of its digits the leading ones that fit 64 bits are taken,
and their number is scaled by a power of ten. -/
namespace VisitorGen.Json

def isDigit (c : Char) : Bool := decide ('0' ≤ c) && decide (c ≤ '9')

def digitValue (c : Char) : Nat := c.toNat - '0'.toNat

structure Exponent where
  negative : Bool
  digits : List Char

structure Numeral where
  negative : Bool
  whole : List Char
  fraction : List Char
  exponent? : Option Exponent

namespace Numeral

/-! ### Form -/

/-- What a numeral that stops short amounts to: the text ends, or it goes on wrongly. -/
def cutShort (atEnd : Cause) : List Char → Fault
  | [] => .past atEnd []
  | cs => .past .invalidNumber cs

/-- One digit or more. -/
def digits (atEnd : Cause) (cs : List Char) : Except Fault (List Char × List Char) :=
  if (cs.takeWhile isDigit).isEmpty then .error (cutShort atEnd cs)
  else .ok (cs.takeWhile isDigit, cs.dropWhile isDigit)

/-- The digits before the point: a lone zero, or digits that do not begin with zero. -/
def scanWhole (atEnd : Cause) : Scan (List Char)
  | '0' :: c :: rest =>
    if isDigit c then .error (.past .invalidNumber (c :: rest)) else .ok (['0'], c :: rest)
  | cs => digits atEnd cs

def scanFraction (atEnd : Cause) : Scan (List Char)
  | '.' :: rest => digits atEnd rest
  | cs => .ok ([], cs)

def scanExponent (atEnd : Cause) (cs : List Char) : Except Fault (Option Exponent × List Char) :=
  let signed (negative : Bool) (cs : List Char) := do
    let (ds, rest) ← digits atEnd cs
    return (some ⟨negative, ds⟩, rest)
  match cs with
  | c :: rest =>
    if c = 'e' ∨ c = 'E' then
      match rest with
      | '+' :: rest => signed false rest
      | '-' :: rest => signed true rest
      | rest => signed false rest
    else .ok (none, c :: rest)
  | [] => .ok (none, [])

def scanUnsigned (atEnd : Cause) (negative : Bool) : Scan Numeral := fun cs => do
  let (whole, rest) ← scanWhole atEnd cs
  let (fraction, rest) ← scanFraction atEnd rest
  let (exponent?, rest) ← scanExponent atEnd rest
  return (⟨negative, whole, fraction, exponent?⟩, rest)

/-- Reads a numeral. `atEnd` is what to report when the text ends within it. -/
def scan (atEnd : Cause) : Scan Numeral
  | '-' :: rest => scanUnsigned atEnd true rest
  | cs => scanUnsigned atEnd false cs

/-! ### Value -/

def maxWhole : Nat := Nat.pow 2 64 - 1

/-- Appends digits to a number as long as it fits 64 bits; gives what is left of them. -/
def accumulate (n : Nat) : List Char → Nat × List Char
  | [] => (n, [])
  | c :: rest =>
    if n * 10 + digitValue c ≤ maxWhole then accumulate (n * 10 + digitValue c) rest
    else (n, c :: rest)

/-- A power of ten that a double can hold. -/
def tenTo (k : Nat) : Float := Float.ofScientific 1 false k

/-- `x * 10 ^ exponent`, or none if that is no finite double. Below `10 ^ -308` the scaling
takes several steps, in no more than the given number. -/
def scale? : (steps : Nat) → (x : Float) → (exponent : Int) → Option Float
  | 0, x, _ => some x
  | steps + 1, x, exponent =>
    if exponent.natAbs ≤ 308 then
      if 0 ≤ exponent then
        let y := x * tenTo exponent.natAbs
        if y.isInf then none else some y
      else some (x / tenTo exponent.natAbs)
    else if x == 0.0 then some x
    else if 0 ≤ exponent then none
    else scale? steps (x / tenTo 308) (exponent + 308)

def maxExponent : Nat := Nat.pow 2 31 - 1

/-- The exponent the digits spell, or how many digits are left when it gets too large. -/
def exponentOf (n : Nat) : List Char → Except Nat Nat
  | [] => .ok n
  | c :: rest =>
    if n * 10 + digitValue c ≤ maxExponent then exponentOf (n * 10 + digitValue c) rest
    else .error rest.length

def signed (negative : Bool) (x : Float) : Number := .decimal (if negative then -x else x)

/-- Scaled by ten to the `exponent`; the error says that no digits are left to read. -/
def scaled (negative : Bool) (n : Nat) (exponent : Int) : Except Nat Number :=
  match scale? 16 n.toUInt64.toFloat exponent with
  | some x => .ok (signed negative x)
  | none => .error 0

/-- The number, or for one out of range how many bytes of the numeral are left when
that shows. -/
def value (numeral : Numeral) : Except Nat Number :=
  let (n, dropped) := accumulate 0 numeral.whole
  let (m, ignored) := accumulate n numeral.fraction
  let shift : Int := dropped.length - (numeral.fraction.length - ignored.length : Nat)
  match numeral.exponent? with
  | some e =>
    match exponentOf 0 e.digits with
    | .ok k => scaled numeral.negative m (if e.negative then shift - k else shift + k)
    | .error left =>
      if m ≠ 0 ∧ !e.negative then .error left else .ok (signed numeral.negative 0.0)
  | none =>
    if dropped.isEmpty ∧ numeral.fraction.isEmpty then
      if !numeral.negative then .ok (.natural m)
      else if 0 < m ∧ m ≤ Nat.pow 2 63 then .ok (.negative m)
      else .ok (signed true m.toUInt64.toFloat)
    else scaled numeral.negative m shift

end Numeral

def number : Scan Number := fun cs => do
  let (numeral, rest) ← Numeral.scan .endOfValue cs
  match numeral.value with
  | .ok n => return (n, rest)
  | .error left => throw (.placed .numberOutOfRange (byteCount rest + left))

/-- Passes over a number, however large. -/
def skipNumber : Scan Unit := fun cs => do
  let (_, rest) ← Numeral.scan .invalidNumber cs
  return ((), rest)

end VisitorGen.Json
