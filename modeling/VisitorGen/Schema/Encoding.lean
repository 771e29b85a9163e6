import VisitorGen.Schema.Basic
import VisitorGen.Json.Printer

/-! Schemas as JSON values, for writing. A root kind has no member `parent`; `fields` and
`includes` are written even when they are empty. -/
namespace VisitorGen
open Json (Value)

def Field.members (f : Field) : List (String × Value) :=
  [("name", .string f.name), ("type", .string f.type)]

def Field.toJson (f : Field) : Value := .object f.members

def AbstractKind.members (kind : AbstractKind) : List (String × Value) :=
  ("name", .string kind.name) ::
    match kind.parent? with
    | none => []
    | some parent => [("parent", .string parent)]

def AbstractKind.toJson (kind : AbstractKind) : Value := .object kind.members

def ConcreteKind.members (kind : ConcreteKind) : List (String × Value) :=
  [("name", .string kind.name), ("fields", .array (kind.fields.map Field.toJson)),
    ("parent", .string kind.parent)]

def ConcreteKind.toJson (kind : ConcreteKind) : Value := .object kind.members

def Entry.toJson : Entry → Value
  | .ofAbstract kind => .object (("kind", .string "abstract") :: kind.members)
  | .ofConcrete kind => .object (("kind", .string "concrete") :: kind.members)

def Schema.toJson (s : Schema) : Value :=
  .object [("includes", .array (s.includes.map .string)),
    ("entries", .array (s.entries.map Entry.toJson))]

/-- The text in which a schema is stored. -/
def Schema.text (s : Schema) : String := s.toJson.pretty

end VisitorGen
