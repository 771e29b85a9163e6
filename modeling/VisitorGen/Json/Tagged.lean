import VisitorGen.Json.Record

/-! Tagged values: one of several shapes, told apart by a tag.

An object carries the tag as one of its members, wherever it stands; a list carries it
as its first element. The tag is decoded where it is met. All the rest is kept until
the value has been read to its end, and then converted to the shape that the tag names. -/
namespace VisitorGen.Json

structure Tagged (τ α : Type) where
  name : String
  key : String
  tag : Decoder τ
  content : τ → Value → Except Mismatch α

namespace Tagged
variable {τ α : Type} (t : Tagged τ α)

/-- The tag as far as it is known, and the other members met. -/
abbrev Draft (τ : Type) := Option τ × List (String × Value)

def scanMember (allowance : Nat) (draft : Draft τ) : Scan (Draft τ) := fun cs => do
  let (key, rest) ← string cs
  if key = t.key then
    if draft.1.isSome then throw (.loose (.repeatedMember t.key) rest)
    else
      let ((), rest) ← colon rest
      let (tag, rest) ← t.tag.scan allowance rest
      return ((some tag, draft.2), rest)
  else
    let ((), rest) ← colon rest
    let (v, rest) ← value allowance rest
    return ((draft.1, draft.2 ++ [(key, v)]), rest)

/-- The tag and the other members of an object. -/
def scanObject (allowance : Nat) : Scan (τ × Value) :=
  Bracket.object.enclose fun cs => do
    let (draft, rest) ←
      foldMembers .kept (t.scanMember allowance) (cs.length + 1) true (none, []) cs
    match draft.1 with
    | none => throw (.loose (.missingMember t.key) rest)
    | some tag => return ((tag, .object draft.2), rest)

/-- The tag and the other elements of a list. -/
def scanList (allowance : Nat) : Scan (τ × Value) :=
  Bracket.list.enclose fun cs => do
    match ← nextElement .kept true cs with
    | .stop rest => throw (.loose (.missingMember t.key) rest)
    | .more rest =>
      let (tag, rest) ← t.tag.scan allowance rest
      let (items, rest) ← elements .kept (value allowance) (rest.length + 1) false rest
      return ((tag, .array items), rest)

def scan (allowance : Nat) : Scan α := fun cs => do
  let ((tag, content), rest) ←
    match skipSpace cs with
    | '[' :: rest => nested allowance '[' t.scanList rest
    | '\x7b' :: rest => nested allowance '\x7b' t.scanObject rest
    | rest => .error (wrongTypeFault t.name rest)
  match t.content tag content with
  | .ok a => return (a, rest)
  | .error m => throw (.loose m rest)

/-- The one tag among the members, and the members that are no tag. -/
def convertObject (members : List (String × Value)) : Except Mismatch α :=
  match members.filter (·.1 == t.key) with
  | [] => .error (.missingMember t.key)
  | [(_, v)] => do
    let tag ← t.tag.convert v
    t.content tag (.object (members.filter (·.1 != t.key)))
  | _ => .error (.repeatedMember t.key)

def convert : Value → Except Mismatch α
  | .array [] => .error (.missingMember t.key)
  | .array (v :: items) => do
    let tag ← t.tag.convert v
    t.content tag (.array items)
  | .object members => t.convertObject members
  | v => .error (.wrongType v.found t.name)

def decoder : Decoder α := ⟨t.scan, t.convert⟩

end Tagged
end VisitorGen.Json
