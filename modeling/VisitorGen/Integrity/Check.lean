import VisitorGen.Schema.Basic
import VisitorGen.Name.Identifier
import VisitorGen.Text.Splitting
import VisitorGen.Integrity.Defect

/-! Checking a schema. The abstract kinds are looked through for a repeated name first.
Then every entry is checked in turn against the entries before it: its name, its parent,
its place in its scope and, if it is concrete, its fields. The first defect met is
reported; a schema without one is sound. -/
namespace VisitorGen

namespace ConcreteKind

/-- The first defect of a field, given the names of the fields before it. -/
def fieldDefect? (kind : ConcreteKind) (seen : List String) (field : Field) : Option Defect :=
  if !Name.isIdentifier field.name then some (.fieldNotIdentifier field.name kind.name)
  else if Name.isReserved field.name then some (.fieldReserved field.name kind.name)
  else if field.name = kind.name then some (.fieldNamedAfterKind field.name kind.name)
  else if Text.isBlankText field.type then some (.fieldWithoutType field.name kind.name)
  else if seen.contains field.name then some (.repeatedField field.name kind.name)
  else none

def fieldsDefect? (kind : ConcreteKind) (seen : List String) : List Field → Option Defect
  | [] => none
  | field :: rest =>
    (kind.fieldDefect? seen field).or (kind.fieldsDefect? (field.name :: seen) rest)

/-- What is wrong with a concrete kind by itself. -/
def defect? (kind : ConcreteKind) : Option Defect :=
  if kind.name = kind.parent then some (.namedAfterParent kind.name)
  else kind.fieldsDefect? [] kind.fields

end ConcreteKind

namespace Entry

def nameDefect? (e : Entry) : Option Defect :=
  if !Name.isIdentifier e.name then some (.kindNotIdentifier e.name)
  else if Name.isReserved e.name then some (.kindReserved e.name)
  else none

/-- A parent has to be an abstract kind of the schema and to stand before its children. -/
def parentDefect? (s : Schema) (before : List Entry) (e : Entry) : Option Defect :=
  match e.parent? with
  | none => none
  | some parent =>
    if before.any (·.declares parent) then none
    else if s.entries.any (·.declares parent) then some (.lateParent parent e.name)
    else some (.unknownParent parent e.name)

/-- Within one scope every kind has a name of its own. -/
def scopeDefect? (before : List Entry) (e : Entry) : Option Defect :=
  if before.any fun other => other.parent? == e.parent? && other.name == e.name then
    some (.repeatedInScope e.name)
  else none

def fieldsDefect? : Entry → Option Defect
  | ofAbstract _ => none
  | ofConcrete kind => kind.defect?

/-- The first defect of an entry, given the entries before it. -/
def defect? (s : Schema) (before : List Entry) (e : Entry) : Option Defect :=
  e.nameDefect?.or <| (e.parentDefect? s before).or <| (e.scopeDefect? before).or e.fieldsDefect?

end Entry

namespace Schema

/-- The first abstract kind whose name an abstract kind before it has. -/
def repeatedAbstract? (seen : List String) : List AbstractKind → Option Defect
  | [] => none
  | kind :: rest =>
    if seen.contains kind.name then some (.repeatedAbstractKind kind.name)
    else repeatedAbstract? (kind.name :: seen) rest

/-- The first defect of the remaining entries; `before` are those already passed. -/
def entriesDefect? (s : Schema) (before : List Entry) : List Entry → Option Defect
  | [] => none
  | e :: rest => (e.defect? s before).or (s.entriesDefect? (e :: before) rest)

def defect? (s : Schema) : Option Defect :=
  (repeatedAbstract? [] s.abstractKinds).or (s.entriesDefect? [] s.entries)

/-- The schema is fit for generation. -/
def Sound (s : Schema) : Prop := s.defect? = none

instance (s : Schema) : Decidable s.Sound := inferInstanceAs (Decidable (_ = none))

end Schema
end VisitorGen
