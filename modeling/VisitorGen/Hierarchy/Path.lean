import VisitorGen.Schema.Basic

/-! Paths of abstract kinds: the names of a kind and of all its ancestors, outermost
first. A name is looked up again and again among the abstract kinds of the schema, until
one has no parent. On a cycle of parents there is no path. -/
namespace VisitorGen.Schema

/-- The parent of the first abstract kind of this name. -/
def parentOf? (s : Schema) (name : String) : Option String :=
  (s.abstractKind? name).bind (·.parent?)

/-- The path of a name, if it has at most `steps` components. -/
def climb? (s : Schema) : (steps : Nat) → (name : String) → Option (List String)
  | 0, _ => none
  | steps + 1, name =>
    match s.parentOf? name with
    | none => some [name]
    | some parent => (s.climb? steps parent).map (· ++ [name])

/-- The path of a name. A path visits each abstract kind at most once and may begin at
a name that is no kind, so one component more than there are kinds is enough. -/
def path? (s : Schema) (name : String) : Option (List String) :=
  s.climb? (s.abstractKinds.length + 1) name

/-- The path as it is written in the generated language. A name without a path stands
for itself. -/
def qualifiedName (s : Schema) (name : String) : String :=
  String.intercalate "::" ((s.path? name).getD [name])

end VisitorGen.Schema
