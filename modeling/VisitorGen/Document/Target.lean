import VisitorGen.Document.Header
import VisitorGen.Document.Source
import VisitorGen.Failure

/-! Targets of generation: the header of a schema, or the source that belongs to a given
header. A target is chosen by a mode and, for a source, the name of the header. Only a
sound schema has documents. -/
namespace VisitorGen

inductive Mode where
  | declaration
  | definition
deriving DecidableEq, Repr

namespace Mode

/-- A mode goes by the extension of its documents or by what they hold. -/
def ofName (name : String) : Except Failure Mode :=
  if name = "hpp" ∨ name = "declaration" then .ok .declaration
  else if name = "cpp" ∨ name = "definition" then .ok .definition
  else .error (.unknownMode name)

def extension : Mode → String
  | declaration => "hpp"
  | definition => "cpp"

end Mode

inductive Target where
  | header
  | source (header : String)
deriving DecidableEq, Repr

namespace Target

/-- A source needs a header that is not blank; blanks around its name are dropped. A
header needs none. -/
def select (mode : Mode) (header? : Option String) : Except Failure Target :=
  match mode with
  | .declaration => .ok .header
  | .definition =>
    match header? with
    | none => .error .missingHeader
    | some name =>
      if Text.isBlankText name then .error .missingHeader else .ok (.source (Text.trim name))

def mode : Target → Mode
  | header => .declaration
  | source _ => .definition

def document : Target → Schema → Document
  | header, s => s.header
  | source name, s => s.source name

/-- The document of a sound schema. -/
def generate (t : Target) (s : Schema) : Except Failure Document := do
  s.verify
  return t.document s

end Target

/-- The document for a mode and a header, both checked before the schema is. -/
def Schema.generate (s : Schema) (mode : Mode) (header? : Option String) :
    Except Failure Document := do
  let target ← Target.select mode header?
  target.generate s

end VisitorGen
