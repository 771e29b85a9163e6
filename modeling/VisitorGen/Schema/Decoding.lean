import VisitorGen.Schema.Basic
import VisitorGen.Json.Tagged

/-! Decoders of the schema types. The members `includes` of a schema, `fields` of a
concrete kind and `parent` of an abstract kind may be absent. -/
namespace VisitorGen
open Json (Decoder Mismatch Record Slot Tagged)

/-- What has been read must be there, or the record lacks the member. -/
def present (lack : Nat → String → Mismatch) (position : Nat) (key : String) :
    Option α → Except Mismatch α
  | some a => .ok a
  | none => .error (lack position key)

namespace Field

structure Draft where
  name? : Option String := none
  type? : Option String := none

def record : Record Draft Field where
  name := "Field"
  empty := {}
  slots :=
    [⟨"name", (·.name?.isSome), Decoder.string.map fun a d => { d with name? := some a }⟩,
     ⟨"type", (·.type?.isSome), Decoder.string.map fun a d => { d with type? := some a }⟩]
  finish lack d := do
    let name ← present lack 0 "name" d.name?
    let type ← present lack 1 "type" d.type?
    return ⟨name, type⟩

def decoder : Decoder Field := record.decoder

end Field

namespace AbstractKind

structure Draft where
  name? : Option String := none
  parent? : Option (Option String) := none

def record : Record Draft AbstractKind where
  name := "AbstractKind"
  empty := {}
  slots :=
    [⟨"name", (·.name?.isSome), Decoder.string.map fun a d => { d with name? := some a }⟩,
     ⟨"parent", (·.parent?.isSome),
       (Decoder.optional .string).map fun a d => { d with parent? := some a }⟩]
  finish lack d := do
    let name ← present lack 0 "name" d.name?
    return ⟨name, d.parent?.getD none⟩

def decoder : Decoder AbstractKind := record.decoder

end AbstractKind

namespace ConcreteKind

structure Draft where
  name? : Option String := none
  fields? : Option (List Field) := none
  parent? : Option String := none

def record : Record Draft ConcreteKind where
  name := "ConcreteKind"
  empty := {}
  slots :=
    [⟨"name", (·.name?.isSome), Decoder.string.map fun a d => { d with name? := some a }⟩,
     ⟨"fields", (·.fields?.isSome),
       (Decoder.list Field.decoder).map fun a d => { d with fields? := some a }⟩,
     ⟨"parent", (·.parent?.isSome),
       Decoder.string.map fun a d => { d with parent? := some a }⟩]
  finish lack d := do
    let name ← present lack 0 "name" d.name?
    let parent ← present lack 2 "parent" d.parent?
    return ⟨name, d.fields?.getD [], parent⟩

def decoder : Decoder ConcreteKind := record.decoder

end ConcreteKind

namespace Entry

inductive Tag where
  | isAbstract
  | isConcrete
deriving DecidableEq

def tagged : Tagged Tag Entry where
  name := "internally tagged enum Entry"
  key := "kind"
  tag := .choice "variant identifier" ("abstract", .isAbstract) ("concrete", .isConcrete)
  content
    | .isAbstract, v => do
      let kind ← AbstractKind.decoder.convert v
      return .ofAbstract kind
    | .isConcrete, v => do
      let kind ← ConcreteKind.decoder.convert v
      return .ofConcrete kind

def decoder : Decoder Entry := tagged.decoder

end Entry

namespace Schema

structure Draft where
  includes? : Option (List String) := none
  entries? : Option (List Entry) := none

def record : Record Draft Schema where
  name := "Schema"
  empty := {}
  slots :=
    [⟨"includes", (·.includes?.isSome),
       (Decoder.list .string).map fun a d => { d with includes? := some a }⟩,
     ⟨"entries", (·.entries?.isSome),
       (Decoder.list Entry.decoder).map fun a d => { d with entries? := some a }⟩]
  finish lack d := do
    let entries ← present lack 1 "entries" d.entries?
    return ⟨d.includes?.getD [], entries⟩

def decoder : Decoder Schema := record.decoder

end Schema
end VisitorGen
