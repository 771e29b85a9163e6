/-! JSON values. An object keeps its members in the order in which they were written,
repetitions included. -/
namespace VisitorGen.Json

/-- A number as it is kept: whole when it was written without fraction and exponent and
fits 64 bits, otherwise a double. `negative n` is `-n`, for `n` above zero. -/
inductive Number where
  | natural (n : Nat)
  | negative (n : Nat)
  | decimal (x : Float)
deriving Repr

inductive Value where
  | null
  | boolean (b : Bool)
  | number (n : Number)
  | string (s : String)
  | array (items : List Value)
  | object (members : List (String × Value))
deriving Repr, Inhabited

end VisitorGen.Json
