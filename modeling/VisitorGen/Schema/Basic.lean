/-! Schemas of node kinds.

A schema is an ordered list of kinds. An abstract kind is a base of the generated
hierarchy, a concrete kind is a node that can be built, with its fields in order. A kind
names its parent; a nested abstract kind lives in the scope of its parent and is visited
through a visitor of its own. Nothing is checked here: a parent may be unknown and names
may repeat. -/
namespace VisitorGen

/-- A member of a concrete kind. The type is text of the generated language. -/
structure Field where
  name : String
  type : String
deriving DecidableEq, Repr

structure AbstractKind where
  name : String
  parent? : Option String
deriving DecidableEq, Repr

structure ConcreteKind where
  name : String
  fields : List Field
  parent : String
deriving DecidableEq, Repr

inductive Entry where
  | ofAbstract (kind : AbstractKind)
  | ofConcrete (kind : ConcreteKind)
deriving DecidableEq, Repr

/-- The entries stand in the order in which they are generated. `includes` are further
headers that the generated header includes. -/
structure Schema where
  includes : List String
  entries : List Entry
deriving DecidableEq, Repr

def AbstractKind.root (name : String) : AbstractKind := ⟨name, none⟩

def AbstractKind.nested (name parent : String) : AbstractKind := ⟨name, some parent⟩

def AbstractKind.isRoot (kind : AbstractKind) : Bool := kind.parent?.isNone

namespace Entry

def name : Entry → String
  | ofAbstract kind => kind.name
  | ofConcrete kind => kind.name

def parent? : Entry → Option String
  | ofAbstract kind => kind.parent?
  | ofConcrete kind => some kind.parent

def abstract? : Entry → Option AbstractKind
  | ofAbstract kind => some kind
  | ofConcrete _ => none

def concrete? : Entry → Option ConcreteKind
  | ofAbstract _ => none
  | ofConcrete kind => some kind

/-- The entry is the abstract kind of this name. -/
def declares (name : String) : Entry → Bool
  | ofAbstract kind => kind.name == name
  | ofConcrete _ => false

end Entry

namespace Schema

def empty : Schema := ⟨[], []⟩

def abstractKinds (s : Schema) : List AbstractKind := s.entries.filterMap Entry.abstract?

def concreteKinds (s : Schema) : List ConcreteKind := s.entries.filterMap Entry.concrete?

/-- The first abstract kind of this name. -/
def abstractKind? (s : Schema) (name : String) : Option AbstractKind :=
  s.abstractKinds.find? (·.name == name)

/-- The entries whose parent has this name, abstract or concrete, in schema order. -/
def membersOf (s : Schema) (parent : String) : List Entry :=
  s.entries.filter (·.parent? == some parent)

end Schema
end VisitorGen
