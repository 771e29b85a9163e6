import VisitorGen.Json.Reader

/-! Decoders: what to read and how to make it a value of a type.

A decoder works in two ways. `scan` reads from a text, and so a mismatch is met where it
stands; `convert` takes a JSON value that has been read already. The decoders of this
file are the pieces of which the decoders of the schema types are made. -/
namespace VisitorGen.Json

structure Decoder (α : Type) where
  scan : (allowance : Nat) → Scan α
  convert : Value → Except Mismatch α

/-- The fault of a text that goes on with a value of the wrong type. A scalar is read to
say what it is; of a list or object nothing is read. -/
def wrongTypeFault (expected : String) : List Char → Fault
  | '[' :: rest => .here (.mismatch (.wrongType .sequence expected)) ('[' :: rest)
  | '\x7b' :: rest => .here (.mismatch (.wrongType .map expected)) ('\x7b' :: rest)
  | cs =>
    match scalar cs with
    | .error fault => fault
    | .ok (v, rest) => .here (.mismatch (.wrongType v.found expected)) rest

/-- What reads on after an opening bracket, as long as one more may be opened. -/
def nested (allowance : Nat) (bracket : Char) (body : (allowance : Nat) → Scan α) : Scan α :=
  fun rest =>
    match allowance with
    | 0 => .error (.past .nestingTooDeep (bracket :: rest))
    | allowance + 1 => body allowance rest

namespace Decoder

def map (f : α → β) (d : Decoder α) : Decoder β where
  scan allowance cs := do
    let (a, rest) ← d.scan allowance cs
    return (f a, rest)
  convert v := do
    let a ← d.convert v
    return f a

/-- A string; `expected` is what a report calls it. -/
def text (expected : String) : Decoder String where
  scan _ cs :=
    match skipSpace cs with
    | '"' :: rest => Json.string rest
    | rest => .error (wrongTypeFault expected rest)
  convert
    | .string s => .ok s
    | v => .error (.wrongType v.found expected)

def string : Decoder String := text "a string"

/-- A value, or null for none. -/
def optional (d : Decoder α) : Decoder (Option α) where
  scan allowance cs :=
    match skipSpace cs with
    | 'n' :: rest => do
      let ((), rest) ← word nullTail rest
      return (none, rest)
    | rest => do
      let (a, rest) ← d.scan allowance rest
      return (some a, rest)
  convert
    | .null => .ok none
    | v => do
      let a ← d.convert v
      return some a

def list (d : Decoder α) : Decoder (List α) where
  scan allowance cs :=
    match skipSpace cs with
    | '[' :: rest =>
      nested allowance '[' (fun allowance cs =>
        Bracket.list.enclose (elements .kept (d.scan allowance) (cs.length + 1) true) cs) rest
    | rest => .error (wrongTypeFault "a sequence" rest)
  convert
    | .array items => items.mapM d.convert
    | v => .error (.wrongType v.found "a sequence")

/-- One of two words. -/
def choice (expected : String) (first second : String × α) : Decoder α where
  scan allowance cs := do
    let (name, rest) ← (text expected).scan allowance cs
    match pick name with
    | .ok a => return (a, rest)
    | .error m => throw (.here (.mismatch m) rest)
  convert v := do
    let name ← (text expected).convert v
    pick name
where
  pick (name : String) : Except Mismatch α :=
    if name = first.1 then .ok first.2
    else if name = second.1 then .ok second.2
    else .error (.unknownVariant name first.1 second.1)

end Decoder

/-- The value of the whole text, with nothing but space after it. -/
def Decoder.read (d : Decoder α) (text : String) : Except ReadError α :=
  match d.scan nestingLimit text.toList with
  | .error fault => .error (.ofFault text.toList fault)
  | .ok (a, rest) =>
    match skipSpace rest with
    | [] => .ok a
    | rest => .error (.ofFault text.toList (.past .trailingCharacters rest))

end VisitorGen.Json
