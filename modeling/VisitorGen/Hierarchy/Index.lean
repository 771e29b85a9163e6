import VisitorGen.Schema.Basic

/-! The hierarchy index: the concrete kinds of a schema grouped under the name of their
parent. Parents stand in the order in which they got their first child, children in
schema order, and a parent without children has no group. Two indexes are the same
when they hold the same groups, in whatever order the parents stand. -/
namespace VisitorGen

structure HierarchyIndex where
  groups : List (String × List ConcreteKind)
deriving Repr

namespace HierarchyIndex

/-- Puts a kind last in the group of its parent, opening the group if there is none. -/
def insertGroup (kind : ConcreteKind) :
    List (String × List ConcreteKind) → List (String × List ConcreteKind)
  | [] => [(kind.parent, [kind])]
  | (parent, kinds) :: rest =>
    if parent = kind.parent then (parent, kinds ++ [kind]) :: rest
    else (parent, kinds) :: insertGroup kind rest

def empty : HierarchyIndex := ⟨[]⟩

def insert (index : HierarchyIndex) (kind : ConcreteKind) : HierarchyIndex :=
  ⟨insertGroup kind index.groups⟩

def ofSchema (s : Schema) : HierarchyIndex := s.concreteKinds.foldl insert empty

def parents (index : HierarchyIndex) : List String := index.groups.map (·.1)

/-- The children of a parent, none when the parent is unknown or has none. -/
def childrenOf (index : HierarchyIndex) (parent : String) : List ConcreteKind :=
  (index.groups.lookup parent).getD []

def size (index : HierarchyIndex) : Nat := index.groups.length

def isEmpty (index : HierarchyIndex) : Bool := index.groups.isEmpty

/-- As many groups, and each group of the one is a group of the other. -/
def same (a b : HierarchyIndex) : Bool :=
  a.size == b.size && a.groups.all fun g => b.groups.lookup g.1 == some g.2

end HierarchyIndex
end VisitorGen
