import Mathlib.Data.List.Induction
import Mathlib.Data.List.Nodup
import VisitorGen.Hierarchy.Index

/-! The hierarchy index is the grouping of the concrete kinds under their parents. The
parents are those of the kinds, each once, in the order in which it is first named, and
the group of a parent is all that is left of the kinds when the others are taken out. -/
namespace VisitorGen

/-- The kinds of a list with this parent, in the order of the list. -/
def childrenAmong (kinds : List ConcreteKind) (parent : String) : List ConcreteKind :=
  kinds.filter (·.parent == parent)

/-- The parents that kinds of the list name, in the order of their first child. -/
def parentsAmong (kinds : List ConcreteKind) : List String := (kinds.map (·.parent)).eraseDups

theorem mem_parentsAmong {kinds : List ConcreteKind} {parent : String} :
    parent ∈ parentsAmong kinds ↔ ∃ kind ∈ kinds, kind.parent = parent := by
  rw [parentsAmong, List.mem_eraseDups, List.mem_map]

theorem mem_childrenAmong {kinds : List ConcreteKind} {parent : String} {kind : ConcreteKind} :
    kind ∈ childrenAmong kinds parent ↔ kind ∈ kinds ∧ kind.parent = parent := by
  simp [childrenAmong]

/-! ### One more kind -/

theorem parentsAmong_concat_of_mem {kinds : List ConcreteKind} {kind : ConcreteKind}
    (h : kind.parent ∈ parentsAmong kinds) :
    parentsAmong (kinds ++ [kind]) = parentsAmong kinds := by
  have hnone : [kind.parent].removeAll (kinds.map (·.parent)) = [] := by
    simpa [List.removeAll, List.filter_cons] using mem_parentsAmong.1 h
  rw [parentsAmong, List.map_append, List.map_singleton, List.eraseDups_append, hnone,
    List.eraseDups_nil, List.append_nil, parentsAmong]

theorem parentsAmong_concat_of_not_mem {kinds : List ConcreteKind} {kind : ConcreteKind}
    (h : kind.parent ∉ parentsAmong kinds) :
    parentsAmong (kinds ++ [kind]) = parentsAmong kinds ++ [kind.parent] := by
  have hnew : [kind.parent].removeAll (kinds.map (·.parent)) = [kind.parent] := by
    simpa [List.removeAll, List.filter_cons] using mem_parentsAmong.not.1 h
  rw [parentsAmong, List.map_append, List.map_singleton, List.eraseDups_append, hnew]
  rfl

theorem childrenAmong_concat (kinds : List ConcreteKind) (kind : ConcreteKind) (parent : String) :
    childrenAmong (kinds ++ [kind]) parent =
      childrenAmong kinds parent ++ if kind.parent = parent then [kind] else [] := by
  by_cases h : kind.parent = parent <;> simp [childrenAmong, h]

theorem childrenAmong_eq_nil {kinds : List ConcreteKind} {parent : String}
    (h : parent ∉ parentsAmong kinds) : childrenAmong kinds parent = [] := by
  rw [childrenAmong, List.filter_eq_nil_iff]
  intro kind hkind hparent
  exact h (mem_parentsAmong.2 ⟨kind, hkind, by simpa using hparent⟩)

theorem nodup_parentsAmong (kinds : List ConcreteKind) : (parentsAmong kinds).Nodup := by
  induction kinds using List.reverseRecOn with
  | nil => exact List.nodup_nil
  | append_singleton kinds kind ih =>
    by_cases h : kind.parent ∈ parentsAmong kinds
    · rwa [parentsAmong_concat_of_mem h]
    · rw [parentsAmong_concat_of_not_mem h]
      exact List.nodup_append.2 ⟨ih, List.nodup_singleton _, fun a ha b hb hab =>
        h (List.mem_singleton.1 hb ▸ hab ▸ ha)⟩

/-! ### The index -/

namespace HierarchyIndex

/-- A kind is put into the one group of its parent. -/
theorem insertGroup_of_mem {kind : ConcreteKind} {parents : List String} (hnodup : parents.Nodup)
    (h : kind.parent ∈ parents) (group : String → List ConcreteKind) :
    insertGroup kind (parents.map fun p => (p, group p)) =
      parents.map fun p => (p, group p ++ if kind.parent = p then [kind] else []) := by
  induction parents with
  | nil => cases h
  | cons parent rest ih =>
    obtain ⟨hparent, hrest⟩ := List.nodup_cons.1 hnodup
    rw [List.map_cons, List.map_cons, insertGroup]
    by_cases heq : parent = kind.parent
    · have hothers : ∀ p ∈ rest, kind.parent ≠ p := fun p hp hpeq => hparent (heq ▸ hpeq ▸ hp)
      rw [if_pos heq, if_pos heq.symm]
      refine congrArg _ (List.map_congr_left fun p hp => ?_)
      rw [if_neg (hothers p hp), List.append_nil]
    · rw [if_neg heq, if_neg (Ne.symm heq), List.append_nil,
        ih hrest ((List.mem_cons.1 h).resolve_left (Ne.symm heq))]

theorem insertGroup_of_not_mem {kind : ConcreteKind} {parents : List String}
    (h : kind.parent ∉ parents) (group : String → List ConcreteKind) :
    insertGroup kind (parents.map fun p => (p, group p)) =
      (parents.map fun p => (p, group p)) ++ [(kind.parent, [kind])] := by
  induction parents with
  | nil => rfl
  | cons parent rest ih =>
    rw [List.mem_cons, not_or] at h
    rw [List.map_cons, insertGroup, if_neg (Ne.symm h.1), ih h.2]
    rfl

theorem foldl_insert_groups (kinds : List ConcreteKind) :
    (kinds.foldl insert empty).groups =
      (parentsAmong kinds).map fun p => (p, childrenAmong kinds p) := by
  induction kinds using List.reverseRecOn with
  | nil => rfl
  | append_singleton kinds kind ih =>
    rw [List.foldl_append, List.foldl_cons, List.foldl_nil, insert, ih]
    by_cases h : kind.parent ∈ parentsAmong kinds
    · rw [insertGroup_of_mem (nodup_parentsAmong kinds) h, parentsAmong_concat_of_mem h]
      exact List.map_congr_left fun p _ => by rw [childrenAmong_concat]
    · rw [insertGroup_of_not_mem h, parentsAmong_concat_of_not_mem h, List.map_append,
        List.map_singleton, childrenAmong_concat, childrenAmong_eq_nil h, if_pos rfl]
      refine congrArg (· ++ _) (List.map_congr_left fun p hp => ?_)
      have hother : kind.parent ≠ p := fun heq => h (heq ▸ hp)
      rw [childrenAmong_concat, if_neg hother, List.append_nil]

/-- The groups of the index: each parent once, by first child, with all its children. -/
theorem groups_ofSchema (s : Schema) :
    (ofSchema s).groups = (parentsAmong s.concreteKinds).map fun p =>
      (p, childrenAmong s.concreteKinds p) :=
  foldl_insert_groups s.concreteKinds

end HierarchyIndex
end VisitorGen
