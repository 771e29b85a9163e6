/-! Decimal text of a double: the fewest digits that read back as the same double and,
among those, the ones nearest to it. From `1e+16` up and below `0.00001` an exponent is
written, always with its sign; in between the number is positional and keeps a `.0`. -/
namespace VisitorGen.Json.Decimal

/-- The positive number `mantissa * 2 ^ exponent`. Doubles next to `narrowBelow` have half
the usual distance to the double below them. -/
structure Binary where
  mantissa : Nat
  exponent : Int
  narrowBelow : Bool

/-- The size of a finite double, zero included. -/
def Binary.ofFloat (x : Float) : Binary :=
  let bits := x.toBits.toNat
  let fraction : Nat := bits % Nat.pow 2 52
  let biased : Nat := bits / Nat.pow 2 52 % Nat.pow 2 11
  if biased = 0 then ⟨fraction, -1074, false⟩
  else ⟨fraction + Nat.pow 2 52, (biased : Int) - 1075, fraction == 0 && biased > 1⟩

/-- `m * 2 ^ q` in units of `10 ^ p`, as numerator and denominator. -/
def inUnits (m : Nat) (q p : Int) : Nat × Nat :=
  (m * Nat.pow 2 q.toNat * Nat.pow 10 (-p).toNat, Nat.pow 2 (-q).toNat * Nat.pow 10 p.toNat)

/-- `c * 10 ^ p` rounds to the number. A tie rounds to an even mantissa. -/
def Binary.rounds (v : Binary) (c : Nat) (p : Int) : Bool :=
  let (highNum, highDen) := inUnits (2 * v.mantissa + 1) (v.exponent - 1) p
  let (lowNum, lowDen) :=
    if v.narrowBelow then inUnits (4 * v.mantissa - 1) (v.exponent - 2) p
    else inUnits (2 * v.mantissa - 1) (v.exponent - 1) p
  if v.mantissa % 2 = 0 then lowNum ≤ c * lowDen && c * highDen ≤ highNum
  else lowNum < c * lowDen && c * highDen < highNum

/-- The multiple of `10 ^ p` that rounds to the number, if one does; of two neighbours
the nearer, and of two that are equally near the even one. -/
def Binary.nearest? (v : Binary) (p : Int) : Option Nat :=
  let (num, den) := inUnits v.mantissa v.exponent p
  let floor := num / den
  let below := 2 * (num % den) < den ∨ 2 * (num % den) = den ∧ floor % 2 = 0
  let (first, second) := if below then (floor, floor + 1) else (floor + 1, floor)
  if v.rounds first p then some first
  else if v.rounds second p then some second
  else none

/-- Digits and exponent on the coarsest grid that has a number to offer. -/
def Binary.shortest (v : Binary) : Nat × Int :=
  let grids := (List.range 700).map fun i : Nat => 330 - (i : Int)
  match grids.findSome? fun p => (v.nearest? p).bind fun c => if c = 0 then none else some (c, p)
    with
  | some found => found
  | none => (0, 0)

/-- An exponent, with its sign. -/
def exponentChars (exponent : Int) : List Char :=
  'e' :: (if exponent < 0 then '-' else '+') :: Nat.toDigits 10 exponent.natAbs

/-- Text of the digits `digits` with the decimal point after the first `point` of them. -/
def layout (digits : List Char) (point : Int) : List Char :=
  let count : Int := digits.length
  if count ≤ point && point ≤ 16 then
    digits ++ List.replicate (point - count).toNat '0' ++ ['.', '0']
  else if 0 < point && point ≤ 16 then
    digits.take point.toNat ++ '.' :: digits.drop point.toNat
  else if -5 < point && point ≤ 0 then
    '0' :: '.' :: List.replicate (-point).toNat '0' ++ digits
  else
    match digits with
    | first :: second :: rest => first :: '.' :: second :: rest ++ exponentChars (point - 1)
    | _ => digits ++ exponentChars (point - 1)

/-- The text of a finite double. -/
def chars (x : Float) : List Char :=
  let sign := if x.toBits.toNat < Nat.pow 2 63 then [] else ['-']
  let v := Binary.ofFloat x
  if v.mantissa = 0 then sign ++ ['0', '.', '0']
  else
    let (c, p) := v.shortest
    let digits := Nat.toDigits 10 c
    sign ++ layout digits (p + digits.length)

end VisitorGen.Json.Decimal
