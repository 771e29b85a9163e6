import Mathlib.Data.List.FinRange
import Mathlib.Data.List.Sort
import VisitorGen.Proofs.Hierarchy.Partition

/-! Indexes are compared by what can be looked up in them. Two indexes are the same exactly when
every name has the same children in both (`same_iff_childrenOf`), so an edit of a schema that
leaves each family of siblings as it is leaves the index the same, however much it moves the
families against each other (`Edited.same`). -/
namespace VisitorGen

/-! ### Sameness -/

namespace HierarchyIndex
variable {a b : Schema}

theorem nodup_parents (s : Schema) : (ofSchema s).parents.Nodup := by
  rw [parents_ofSchema]
  exact nodup_parentsAmong s.concreteKinds

theorem size_eq_length_parents (index : HierarchyIndex) : index.size = index.parents.length :=
  (List.length_map _).symm

/-- The groups of the one are among those of the other when its parents are parents there too,
with the same children. -/
theorem all_groups_iff :
    ((ofSchema a).groups.all fun g => (ofSchema b).groups.lookup g.1 == some g.2) = true ↔
      ∀ p ∈ (ofSchema a).parents, p ∈ (ofSchema b).parents ∧
        (ofSchema b).childrenOf p = (ofSchema a).childrenOf p := by
  rw [groups_eq a, List.all_map, List.all_eq_true]
  refine forall₂_congr fun p _ => ?_
  rw [Function.comp_apply, beq_iff_eq, lookup_ofSchema, childrenOf_ofSchema b]
  by_cases hp : p ∈ (ofSchema b).parents <;> simp [hp]

theorem mem_parents_iff_of_childrenOf_eq
    (h : ∀ p, (ofSchema a).childrenOf p = (ofSchema b).childrenOf p) (p : String) :
    p ∈ (ofSchema a).parents ↔ p ∈ (ofSchema b).parents := by
  rw [← childrenOf_ne_nil_iff, ← childrenOf_ne_nil_iff, h p]

/-- No parent is repeated, so parents that are all found again in as many others are those. -/
theorem mem_parents_iff_of_same (hsize : (ofSchema a).size = (ofSchema b).size)
    (hsub : ∀ p ∈ (ofSchema a).parents, p ∈ (ofSchema b).parents) (p : String) :
    p ∈ (ofSchema a).parents ↔ p ∈ (ofSchema b).parents := by
  rw [size_eq_length_parents, size_eq_length_parents] at hsize
  have hperm : (ofSchema a).parents.Perm (ofSchema b).parents :=
    (List.subperm_of_subset (nodup_parents a) hsub).perm_of_length_le hsize.ge
  exact hperm.mem_iff

theorem same_iff_childrenOf :
    (ofSchema a).same (ofSchema b) = true ↔
      ∀ p, (ofSchema a).childrenOf p = (ofSchema b).childrenOf p := by
  rw [same, Bool.and_eq_true, beq_iff_eq, all_groups_iff]
  constructor
  · rintro ⟨hsize, hgroups⟩ p
    by_cases hp : p ∈ (ofSchema a).parents
    · exact (hgroups p hp).2.symm
    · have hnone := mem_parents_iff_of_same hsize (fun q hq => (hgroups q hq).1) p
      rw [not_not.1 (mt (childrenOf_ne_nil_iff a p).1 hp),
        not_not.1 (mt (childrenOf_ne_nil_iff b p).1 (mt hnone.2 hp))]
  · intro h
    have hparents := mem_parents_iff_of_childrenOf_eq h
    have hperm : (ofSchema a).parents.Perm (ofSchema b).parents :=
      (List.perm_ext_iff_of_nodup (nodup_parents a) (nodup_parents b)).2 hparents
    refine ⟨?_, fun p hp => ⟨(hparents p).1 hp, (h p).symm⟩⟩
    rw [size_eq_length_parents, size_eq_length_parents, hperm.length_eq]

end HierarchyIndex

/-! ### Reorderings -/

/-- The entry is a concrete kind with this parent. -/
def Entry.isChildOf (parent : String) (e : Entry) : Bool :=
  e.concrete?.any (·.parent == parent)

/-- Concrete kinds with one parent. -/
def Entry.Siblings (e f : Entry) : Prop :=
  ∃ kind ∈ e.concrete?, ∃ kind' ∈ f.concrete?, kind.parent = kind'.parent

instance (e f : Entry) : Decidable (e.Siblings f) :=
  inferInstanceAs (Decidable (∃ kind ∈ e.concrete?, ∃ kind' ∈ f.concrete?, _ = _))

/-- The entries of the one list stand in the other in another order, each at a place of its own.
Of two siblings the earlier is still the earlier. -/
structure Reordering (es fs : List Entry) where
  place : Fin es.length ≃ Fin fs.length
  unchanged : ∀ i, fs.get (place i) = es.get i
  keeps : ∀ i j, i < j → (es.get i).Siblings (es.get j) → place i < place j

section
variable {α : Type} {es fs : List α}

/-- Items that keep their order among each other are the same list before and after. -/
theorem filter_eq_of_places (q : α → Bool) (place : Fin es.length ≃ Fin fs.length)
    (hunchanged : ∀ i, fs.get (place i) = es.get i)
    (hkeeps : ∀ i j, i < j → q (es.get i) = true → q (es.get j) = true → place i < place j) :
    es.filter q = fs.filter q := by
  -- the places of the items, in increasing order on either side
  let before := (List.finRange es.length).filter fun i => q (es.get i)
  let after := (List.finRange fs.length).filter fun j => q (fs.get j)
  have hes : es.filter q = before.map es.get := by
    conv_lhs => rw [← List.map_get_finRange es]
    exact List.filter_map
  have hfs : fs.filter q = after.map fs.get := by
    conv_lhs => rw [← List.map_get_finRange fs]
    exact List.filter_map
  have hafter : after.Pairwise (· < ·) := (List.sortedLT_finRange _).pairwise.filter _
  have hbefore : (before.map place).Pairwise (· < ·) := by
    refine List.pairwise_map.2 (((List.sortedLT_finRange _).pairwise.filter _).imp_of_mem ?_)
    intro i j hi hj hlt
    exact hkeeps i j hlt (List.mem_filter.1 hi).2 (List.mem_filter.1 hj).2
  have hmem (j : Fin fs.length) : j ∈ before.map place ↔ j ∈ after := by
    constructor
    · intro hj
      obtain ⟨i, hi, rfl⟩ := List.mem_map.1 hj
      have hq := (List.mem_filter.1 hi).2
      rw [← hunchanged i] at hq
      exact List.mem_filter.2 ⟨List.mem_finRange _, hq⟩
    · intro hj
      have hq := (List.mem_filter.1 hj).2
      rw [← place.apply_symm_apply j, hunchanged] at hq
      exact List.mem_map.2 ⟨place.symm j, List.mem_filter.2 ⟨List.mem_finRange _, hq⟩,
        place.apply_symm_apply j⟩
  have hperm : (before.map place).Perm after :=
    (List.perm_ext_iff_of_nodup (hbefore.imp ne_of_lt) (hafter.imp ne_of_lt)).2 hmem
  have hplaces : before.map place = after := hperm.eq_of_pairwise' hbefore hafter
  rw [hes, hfs, ← hplaces, List.map_map]
  exact List.map_congr_left fun i _ => (hunchanged i).symm

end

theorem Entry.siblings_of_isChildOf {parent : String} {e f : Entry}
    (he : e.isChildOf parent = true) (hf : f.isChildOf parent = true) : e.Siblings f := by
  obtain ⟨kind, hkind, hparent⟩ := (Option.any_eq_true _ _).1 he
  obtain ⟨kind', hkind', hparent'⟩ := (Option.any_eq_true _ _).1 hf
  exact ⟨kind, hkind, kind', hkind', (eq_of_beq hparent).trans (eq_of_beq hparent').symm⟩

/-! ### Edits -/

/-- Edits of a list of entries that leave each family of siblings as it is. -/
inductive Edited : List Entry → List Entry → Prop where
  | reordered {es fs : List Entry} (h : Reordering es fs) : Edited es fs
  | inserted (kind : AbstractKind) (before after : List Entry) :
      Edited (before ++ after) (before ++ .ofAbstract kind :: after)
  | removed (kind : AbstractKind) (before after : List Entry) :
      Edited (before ++ .ofAbstract kind :: after) (before ++ after)
  | changed (kind kind' : AbstractKind) (before after : List Entry) :
      Edited (before ++ .ofAbstract kind :: after) (before ++ .ofAbstract kind' :: after)
  | trans {es fs gs : List Entry} (h : Edited es fs) (h' : Edited fs gs) : Edited es gs

theorem Reordering.filter_isChildOf {es fs : List Entry} (h : Reordering es fs) (parent : String) :
    es.filter (Entry.isChildOf parent) = fs.filter (Entry.isChildOf parent) :=
  filter_eq_of_places _ h.place h.unchanged fun i j hlt hi hj =>
    h.keeps i j hlt (Entry.siblings_of_isChildOf hi hj)

theorem Edited.filter_isChildOf {es fs : List Entry} (h : Edited es fs) (parent : String) :
    es.filter (Entry.isChildOf parent) = fs.filter (Entry.isChildOf parent) := by
  have habstract (kind : AbstractKind) : (Entry.ofAbstract kind).isChildOf parent = false := rfl
  induction h with
  | reordered h => exact h.filter_isChildOf parent
  | inserted kind before after => simp [habstract]
  | removed kind before after => simp [habstract]
  | changed kind kind' before after => simp [habstract]
  | trans _ _ ih ih' => exact ih.trans ih'

theorem Edited.same {a b : Schema} (h : Edited a.entries b.entries) :
    (HierarchyIndex.ofSchema a).same (HierarchyIndex.ofSchema b) = true := by
  refine HierarchyIndex.same_iff_childrenOf.2 fun p => ?_
  have hchild (kind : ConcreteKind) :
      (Entry.ofConcrete kind).isChildOf p = (kind.parent == p) := rfl
  rw [HierarchyIndex.childrenOf_ofSchema, HierarchyIndex.childrenOf_ofSchema,
    childrenAmong_concreteKinds a hchild, childrenAmong_concreteKinds b hchild,
    h.filter_isChildOf p]

/-- **Sameness of indexes is extensional.** Two indexes are the same exactly when every name has
the same children in both, kind by kind. So whatever is done to the abstract kinds and the
includes, and however the entries are reordered as long as siblings keep their order, the index
stays the same. -/
theorem HierarchyIndex.same_extensional (a b : Schema) :
    ((ofSchema a).same (ofSchema b) = true ↔
      ∀ p, (ofSchema a).childrenOf p = (ofSchema b).childrenOf p) ∧
    (Edited a.entries b.entries → (ofSchema a).same (ofSchema b) = true) :=
  ⟨same_iff_childrenOf, Edited.same⟩

/-- Two families, one after the other. -/
def familiesApart : Schema :=
  ⟨[], [.ofConcrete ⟨"L", [], "E"⟩, .ofConcrete ⟨"U", [⟨"x", "T"⟩], "E"⟩,
    .ofConcrete ⟨"P", [], "S"⟩]⟩

/-- The same families, one within the other, with an abstract kind added at the end. -/
def familiesMixed : Schema :=
  ⟨["<a>"], [.ofConcrete ⟨"L", [], "E"⟩, .ofConcrete ⟨"P", [], "S"⟩,
    .ofConcrete ⟨"U", [⟨"x", "T"⟩], "E"⟩, .ofAbstract ⟨"E", none⟩]⟩

theorem HierarchyIndex.same_extensional_families :
    Edited familiesApart.entries familiesMixed.entries ∧
      (ofSchema familiesApart).same (ofSchema familiesMixed) = true := by
  let moved : List Entry :=
    [.ofConcrete ⟨"L", [], "E"⟩, .ofConcrete ⟨"P", [], "S"⟩, .ofConcrete ⟨"U", [⟨"x", "T"⟩], "E"⟩]
  have hmoved : Reordering familiesApart.entries moved :=
    { place := (Equiv.swap 1 2 : Equiv.Perm (Fin 3))
      unchanged := by decide
      keeps := by decide }
  have hedited : Edited familiesApart.entries familiesMixed.entries :=
    .trans (.reordered hmoved) (.inserted ⟨"E", none⟩ moved [])
  exact ⟨hedited, (same_extensional _ _).2 hedited⟩

end VisitorGen
