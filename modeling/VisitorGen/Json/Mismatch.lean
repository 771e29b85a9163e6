import VisitorGen.Json.Printer
import VisitorGen.Text.Inspected

/-! Mismatches: a JSON value that is well written and yet not of the shape asked for. -/
namespace VisitorGen.Json

/-- What a value is, as far as a report about it says. -/
inductive Found where
  | null
  | boolean (b : Bool)
  | number (n : Number)
  | string (s : String)
  | sequence
  | map

def Value.found : Value → Found
  | .null => .null
  | .boolean b => .boolean b
  | .number n => .number n
  | .string s => .string s
  | .array _ => .sequence
  | .object _ => .map

def Number.described (n : Number) : String :=
  match n with
  | .decimal _ => "floating point `" ++ String.ofList n.chars ++ "`"
  | .natural _ | .negative _ => "integer `" ++ String.ofList n.chars ++ "`"

def Found.described : Found → String
  | .null => "null"
  | .boolean b => "boolean `" ++ String.ofList (Value.booleanChars b) ++ "`"
  | .number n => n.described
  | .string s => "string " ++ Text.inspect s
  | .sequence => "sequence"
  | .map => "map"

/-- `tooShort` is an array in place of a record: it has no element at position `count`,
which the record `record` of `size` members needs. `tooLong` has more than `size`. -/
inductive Mismatch where
  | wrongType (found : Found) (expected : String)
  | missingMember (key : String)
  | repeatedMember (key : String)
  | unknownVariant (name first second : String)
  | tooShort (count : Nat) (record : String) (size : Nat)
  | tooLong (count size : Nat)

def Mismatch.message : Mismatch → String
  | wrongType found expected =>
    "invalid type: " ++ found.described ++ ", expected " ++ expected
  | missingMember key => "missing field `" ++ key ++ "`"
  | repeatedMember key => "duplicate field `" ++ key ++ "`"
  | unknownVariant name first second =>
    "unknown variant `" ++ name ++ "`, expected `" ++ first ++ "` or `" ++ second ++ "`"
  | tooShort count record size =>
    "invalid length " ++ toString count ++ ", expected struct " ++ record ++ " with " ++
      toString size ++ " elements"
  | tooLong count size =>
    "invalid length " ++ toString count ++ ", expected " ++ toString size ++
      " elements in sequence"

end VisitorGen.Json
