import VisitorGen.Json.Decoder

/-! Records: fixed sets of named members.

A record is written as an object, its members in any order and among others that it
does not know, or as a list of its members in their own order. What has been read so far
is a draft, and a slot fills its part of the draft. Once all is read the draft is
finished; `lack` is the mismatch of a draft that lacks the member of a given position
and key. -/
namespace VisitorGen.Json

structure Slot (δ : Type) where
  key : String
  filled : δ → Bool
  decoder : Decoder (δ → δ)

structure Record (δ α : Type) where
  name : String
  empty : δ
  slots : List (Slot δ)
  finish : (lack : Nat → String → Mismatch) → δ → Except Mismatch α

namespace Record
variable {δ α : Type} (r : Record δ α)

def slot? (key : String) : Option (Slot δ) := r.slots.find? (·.key == key)

def lackInObject (_ : Nat) (key : String) : Mismatch := .missingMember key

def lackInList (position : Nat) (_ : String) : Mismatch :=
  .tooShort position r.name r.slots.length

/-! ### From a text -/

/-- One member of the object. A member that the record does not know is skipped; one
that it has already is refused before its value is read. -/
def scanMember (allowance : Nat) (draft : δ) : Scan δ := fun cs => do
  let (key, rest) ← string cs
  match r.slot? key with
  | none =>
    let ((), rest) ← colon rest
    let ((), rest) ← skip rest
    return (draft, rest)
  | some slot =>
    if slot.filled draft then throw (.loose (.repeatedMember key) rest)
    else
      let ((), rest) ← colon rest
      let (fill, rest) ← slot.decoder.scan allowance rest
      return (fill draft, rest)

/-- What the finished draft gives, where the reading of the record has arrived. -/
def finishScan (lack : Nat → String → Mismatch) (draft : δ) : Scan α := fun rest =>
  match r.finish lack draft with
  | .ok a => .ok (a, rest)
  | .error m => .error (.loose m rest)

def scanObject (allowance : Nat) : Scan α :=
  Bracket.object.enclose fun cs => do
    let (draft, rest) ←
      foldMembers .kept (r.scanMember allowance) (cs.length + 1) true r.empty cs
    r.finishScan lackInObject draft rest

/-- The elements of the list, as long as there are slots for them. -/
def scanSlots (allowance : Nat) : List (Slot δ) → (first : Bool) → δ → Scan δ
  | [], _, draft, cs => .ok (draft, cs)
  | slot :: slots, first, draft, cs => do
    match ← nextElement .kept first cs with
    | .stop rest => return (draft, rest)
    | .more rest =>
      let (fill, rest) ← slot.decoder.scan allowance rest
      scanSlots allowance slots false (fill draft) rest

def scanList (allowance : Nat) : Scan α :=
  Bracket.list.enclose fun cs => do
    let (draft, rest) ← scanSlots allowance r.slots true r.empty cs
    r.finishScan r.lackInList draft rest

def scan (allowance : Nat) : Scan α := fun cs =>
  match skipSpace cs with
  | '[' :: rest => nested allowance '[' r.scanList rest
  | '\x7b' :: rest => nested allowance '\x7b' r.scanObject rest
  | rest => .error (wrongTypeFault ("struct " ++ r.name) rest)

/-! ### From a value -/

def convertMember (draft : δ) (member : String × Value) : Except Mismatch δ :=
  match r.slot? member.1 with
  | none => .ok draft
  | some slot =>
    if slot.filled draft then .error (.repeatedMember member.1)
    else do
      let fill ← slot.decoder.convert member.2
      return fill draft

def convertObject (members : List (String × Value)) : Except Mismatch α := do
  let draft ← members.foldlM r.convertMember r.empty
  r.finish lackInObject draft

def convertSlots : List (Slot δ) → List Value → δ → Except Mismatch δ
  | slot :: slots, item :: items, draft => do
    let fill ← slot.decoder.convert item
    convertSlots slots items (fill draft)
  | _, _, draft => .ok draft

def convertList (items : List Value) : Except Mismatch α := do
  let draft ← convertSlots r.slots items r.empty
  let a ← r.finish r.lackInList draft
  if r.slots.length < items.length then throw (.tooLong items.length r.slots.length)
  else return a

def convert : Value → Except Mismatch α
  | .array items => r.convertList items
  | .object members => r.convertObject members
  | v => .error (.wrongType v.found ("struct " ++ r.name))

def decoder : Decoder α := ⟨r.scan, r.convert⟩

end Record
end VisitorGen.Json
