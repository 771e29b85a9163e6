import Mathlib.Data.Finset.Card
import VisitorGen.Proofs.Hierarchy.Grouping

/-! The groups of the index are a partition of the concrete kinds. Whatever the schema is, sound
or not, the index has a group for each parent that a concrete kind names and for no other, in the
order in which the parents are first named; a group is what the members of its parent have of
concrete kinds, and together the groups hold every concrete kind as often as the schema does
(`partitions`). -/
namespace VisitorGen
variable {kinds : List ConcreteKind} {parent : String}

/-! ### Parents -/

theorem childrenAmong_eq_nil_iff :
    childrenAmong kinds parent = [] ↔ parent ∉ parentsAmong kinds := by
  refine ⟨fun hnil hparent => ?_, childrenAmong_eq_nil⟩
  obtain ⟨kind, hkind, hnamed⟩ := mem_parentsAmong.1 hparent
  have hchild : kind ∈ childrenAmong kinds parent := mem_childrenAmong.2 ⟨hkind, hnamed⟩
  rw [hnil] at hchild
  cases hchild

/-- A parent stands before those that are first named after it. -/
theorem pairwise_parentsAmong (kinds : List ConcreteKind) :
    (parentsAmong kinds).Pairwise fun p q =>
      (kinds.map (·.parent)).idxOf p < (kinds.map (·.parent)).idxOf q := by
  induction kinds using List.reverseRecOn with
  | nil => exact .nil
  | append_singleton kinds kind ih =>
    have hnamed {p : String} (hp : p ∈ parentsAmong kinds) : p ∈ kinds.map (·.parent) :=
      List.mem_map.2 (mem_parentsAmong.1 hp)
    have hkept {p : String} (hp : p ∈ parentsAmong kinds) :
        ((kinds ++ [kind]).map (·.parent)).idxOf p = (kinds.map (·.parent)).idxOf p := by
      rw [List.map_append, List.idxOf_append_of_mem (hnamed hp)]
    have hbefore : (parentsAmong kinds).Pairwise fun p q =>
        ((kinds ++ [kind]).map (·.parent)).idxOf p < ((kinds ++ [kind]).map (·.parent)).idxOf q :=
      ih.imp_of_mem fun hp hq hlt => by rwa [hkept hp, hkept hq]
    by_cases h : kind.parent ∈ parentsAmong kinds
    · rwa [parentsAmong_concat_of_mem h]
    · rw [parentsAmong_concat_of_not_mem h]
      refine List.pairwise_append.2 ⟨hbefore, List.pairwise_singleton _ _, fun p hp q hq => ?_⟩
      -- the last name is new, so it stands after all that were named before it
      obtain rfl := List.mem_singleton.1 hq
      have hnew : kind.parent ∉ kinds.map (·.parent) := fun hmem =>
        h (mem_parentsAmong.2 (List.mem_map.1 hmem))
      rw [hkept hp, List.map_append, List.idxOf_append_of_notMem hnew]
      exact Nat.lt_add_right _ (List.idxOf_lt_length_of_mem (hnamed hp))

theorem length_parentsAmong (kinds : List ConcreteKind) :
    (parentsAmong kinds).length = (kinds.map (·.parent)).toFinset.card := by
  rw [← List.toFinset_card_of_nodup (nodup_parentsAmong kinds)]
  congr 1
  ext p
  rw [List.mem_toFinset, List.mem_toFinset, mem_parentsAmong, List.mem_map]

/-! ### Children -/

theorem childrenAmong_cons (kind : ConcreteKind) (kinds : List ConcreteKind) (parent : String) :
    childrenAmong (kind :: kinds) parent =
      if kind.parent = parent then kind :: childrenAmong kinds parent
      else childrenAmong kinds parent := by
  simp [childrenAmong, List.filter_cons]

/-- Every kind is in the group of its parent and in no other. -/
theorem perm_flatMap_childrenAmong {parents : List String} (hnodup : parents.Nodup)
    (hall : ∀ kind ∈ kinds, kind.parent ∈ parents) :
    (parents.flatMap (childrenAmong kinds)).Perm kinds := by
  induction kinds with
  | nil => simp [childrenAmong]
  | cons kind kinds ih =>
    obtain ⟨hkind, hkinds⟩ := List.forall_mem_cons.1 hall
    obtain ⟨before, after, rfl⟩ := List.append_of_mem hkind
    have hother {p : String} (hp : p ∈ before ∨ p ∈ after) :
        childrenAmong (kind :: kinds) p = childrenAmong kinds p := by
      have hne : kind.parent ≠ p := by
        rintro rfl
        have hmid := List.nodup_middle.1 hnodup
        exact (List.nodup_cons.1 hmid).1 (List.mem_append.2 hp)
      rw [childrenAmong_cons, if_neg hne]
    have hsame : (before ++ kind.parent :: after).flatMap (childrenAmong (kind :: kinds)) =
        before.flatMap (childrenAmong kinds) ++
          kind :: (childrenAmong kinds kind.parent ++ after.flatMap (childrenAmong kinds)) := by
      rw [List.flatMap_append, List.flatMap_cons, childrenAmong_cons, if_pos rfl,
        List.flatMap_congr fun p hp => hother (Or.inl hp),
        List.flatMap_congr fun p hp => hother (Or.inr hp)]
      rfl
    have hrest := ih hkinds
    rw [List.flatMap_append, List.flatMap_cons] at hrest
    rw [hsame]
    exact List.perm_middle.trans (hrest.cons kind)

/-- The children of a parent come from the entries that a test lets pass, as long as it lets the
right ones of the concrete kinds pass. -/
theorem childrenAmong_concreteKinds (s : Schema) {q : Entry → Bool}
    (hq : ∀ kind, q (.ofConcrete kind) = (kind.parent == parent)) :
    childrenAmong s.concreteKinds parent = (s.entries.filter q).filterMap Entry.concrete? := by
  rw [childrenAmong, Schema.concreteKinds, List.filter_filterMap, List.filterMap_filter]
  refine List.filterMap_congr fun e _ => ?_
  cases e with
  | ofAbstract kind => simp [Entry.concrete?]
  | ofConcrete kind => rw [hq]; rfl

theorem childrenAmong_eq_members (s : Schema) (parent : String) :
    childrenAmong s.concreteKinds parent = (s.membersOf parent).filterMap Entry.concrete? :=
  childrenAmong_concreteKinds s fun _ => rfl

/-! ### The index -/

namespace HierarchyIndex

theorem parents_ofSchema (s : Schema) : (ofSchema s).parents = parentsAmong s.concreteKinds := by
  rw [parents, groups_ofSchema, List.map_map]
  exact List.map_id _

theorem lookup_map_self (group : String → List ConcreteKind) (parents : List String)
    (parent : String) :
    (parents.map fun p => (p, group p)).lookup parent =
      if parent ∈ parents then some (group parent) else none := by
  induction parents with
  | nil => rfl
  | cons p parents ih =>
    rw [List.map_cons, List.lookup_cons, ih]
    by_cases hp : parent = p
    · subst hp
      simp
    · have hother : (parent == p) = false := beq_eq_false_iff_ne.2 hp
      simp [hother, hp]

/-- A parent without children has no group. -/
theorem lookup_ofSchema (s : Schema) (parent : String) :
    (ofSchema s).groups.lookup parent =
      if parent ∈ (ofSchema s).parents then some (childrenAmong s.concreteKinds parent)
      else none := by
  rw [parents_ofSchema, groups_ofSchema, lookup_map_self]

theorem childrenOf_ofSchema (s : Schema) (parent : String) :
    (ofSchema s).childrenOf parent = childrenAmong s.concreteKinds parent := by
  rw [childrenOf, lookup_ofSchema]
  split
  · rfl
  · rename_i hparent
    rw [parents_ofSchema] at hparent
    rw [childrenAmong_eq_nil hparent]
    rfl

theorem childrenOf_ne_nil_iff (s : Schema) (parent : String) :
    (ofSchema s).childrenOf parent ≠ [] ↔ parent ∈ (ofSchema s).parents := by
  rw [childrenOf_ofSchema, parents_ofSchema, Ne, childrenAmong_eq_nil_iff, not_not]

/-- Each group is its parent with all the children of it. -/
theorem groups_eq (s : Schema) :
    (ofSchema s).groups =
      (ofSchema s).parents.map fun p => (p, (ofSchema s).childrenOf p) := by
  rw [parents_ofSchema, groups_ofSchema]
  exact List.map_congr_left fun p _ => by rw [childrenOf_ofSchema]

theorem isEmpty_ofSchema_iff (s : Schema) :
    (ofSchema s).isEmpty = true ↔ s.concreteKinds = [] := by
  rw [isEmpty, groups_ofSchema, List.isEmpty_iff, List.map_eq_nil_iff]
  constructor
  · intro hnone
    refine List.eq_nil_iff_forall_not_mem.2 fun kind hkind => ?_
    have hparent : kind.parent ∈ parentsAmong s.concreteKinds :=
      mem_parentsAmong.2 ⟨kind, hkind, rfl⟩
    rw [hnone] at hparent
    cases hparent
  · intro hnone
    rw [hnone]
    rfl

/-- What the index of a schema owes. -/
structure Partitions (index : HierarchyIndex) (s : Schema) : Prop where
  mem_parents_iff : ∀ p, p ∈ index.parents ↔ ∃ kind ∈ s.concreteKinds, kind.parent = p
  /-- Each parent is there once, and in the order of first mention. -/
  byFirstChild : index.parents.Pairwise fun p q =>
    (s.concreteKinds.map (·.parent)).idxOf p < (s.concreteKinds.map (·.parent)).idxOf q
  childrenOf_eq : ∀ p, index.childrenOf p = (s.membersOf p).filterMap Entry.concrete?
  groups_eq : index.groups = index.parents.map fun p => (p, index.childrenOf p)
  ne_nil : ∀ group ∈ index.groups, group.2 ≠ []
  /-- The groups together hold each concrete kind as often as the schema does. -/
  perm : (index.groups.flatMap (·.2)).Perm s.concreteKinds
  size_eq : index.size = (s.concreteKinds.map (·.parent)).toFinset.card
  isEmpty_iff : index.isEmpty = true ↔ s.concreteKinds = []

/-- **The index partitions the concrete kinds.** Its parents are the names that concrete kinds
give for their parents, each once and in the order of first mention. The children of any name are
the concrete kinds among its members, in schema order. Every group is a parent with its children,
none is empty, and together they hold each concrete kind as often as the schema does. -/
theorem partitions (s : Schema) : Partitions (ofSchema s) s where
  mem_parents_iff p := by rw [parents_ofSchema, mem_parentsAmong]
  byFirstChild := by
    rw [parents_ofSchema]
    exact pairwise_parentsAmong s.concreteKinds
  childrenOf_eq p := by rw [childrenOf_ofSchema, childrenAmong_eq_members]
  groups_eq := groups_eq s
  ne_nil group hgroup := by
    rw [groups_eq] at hgroup
    obtain ⟨p, hp, rfl⟩ := List.mem_map.1 hgroup
    exact (childrenOf_ne_nil_iff s p).2 hp
  perm := by
    rw [groups_ofSchema, List.flatMap_map]
    exact perm_flatMap_childrenAmong (nodup_parentsAmong _) fun kind hkind =>
      mem_parentsAmong.2 ⟨kind, hkind, rfl⟩
  size_eq := by rw [size, groups_ofSchema, List.length_map, length_parentsAmong]
  isEmpty_iff := isEmpty_ofSchema_iff s

end HierarchyIndex
end VisitorGen
