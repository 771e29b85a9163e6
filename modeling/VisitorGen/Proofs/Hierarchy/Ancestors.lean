import VisitorGen.Proofs.Hierarchy.Qualified

/-! Ancestors in a sound schema. A parent stands before its children, so that the climb
from a kind to its parent and on ends, at the latest with the first kind of the schema
(`Sound.exists_climb?`). The path of a nested kind is then the path of its parent and the
name of the kind, and the class of an entry lies in the scope of its parent's class at
every depth (`Sound.classPath_eq`). -/
namespace VisitorGen.Schema

variable {s : Schema} {kind : AbstractKind} {name : String}

/-! ### The end of the climb -/

/-- The name of an abstract kind finds the kind itself. -/
theorem Sound.parentOf?_name (h : s.Sound) (hkind : kind ∈ s.abstractKinds) :
    s.parentOf? kind.name = kind.parent? := by
  have hfound : s.abstractKind? kind.name = some kind := by
    cases hfind : s.abstractKind? kind.name with
    | none => exact absurd (List.find?_eq_none.1 hfind kind hkind) (by simp)
    | some other =>
      have hname : other.name = kind.name := by simpa using List.find?_some hfind
      rw [List.inj_on_of_nodup_map h.nodup_abstractNames (List.mem_of_find?_eq_some hfind) hkind
        hname]
  rw [parentOf?, hfound]
  rfl

/-- More steps than enough find the same path. -/
theorem climb?_mono {steps more : Nat} {path : List String}
    (hpath : s.climb? steps name = some path) (hle : steps ≤ more) :
    s.climb? more name = some path := by
  induction steps generalizing more name path with
  | zero => cases hpath
  | succ steps ih =>
    obtain ⟨more, rfl⟩ : ∃ n, more = n + 1 := ⟨more - 1, by omega⟩
    rw [climb?] at hpath ⊢
    split at hpath
    · exact hpath
    · obtain ⟨front, hfront, rfl⟩ := Option.map_eq_some_iff.1 hpath
      rw [ih hfront (by omega)]
      rfl

/-- From an abstract kind the climb needs no more steps than there are abstract kinds up
to it. The induction is on the entries passed: the last of them has its parent before it. -/
theorem Sound.exists_climb? (h : s.Sound) (position : Nat)
    (hkind : .ofAbstract kind ∈ s.entries.take position) : ∃ path,
      s.climb? ((s.entries.take position).filterMap Entry.abstract?).length kind.name =
        some path := by
  induction position generalizing kind with
  | zero => cases hkind
  | succ position ih =>
    rw [List.take_add_one] at hkind ⊢
    rw [List.filterMap_append, List.length_append]
    rcases List.mem_append.1 hkind with hkind | hlast
    · obtain ⟨path, hpath⟩ := ih hkind
      exact ⟨path, climb?_mono hpath (Nat.le_add_right _ _)⟩
    · have he : s.entries[position]? = some (.ofAbstract kind) := Option.mem_toList.1 hlast
      have hmem : kind ∈ s.abstractKinds := mem_abstractKinds.2 (List.mem_of_getElem? he)
      have hone : (s.entries[position]?.toList.filterMap Entry.abstract?).length = 1 := by
        rw [he]
        rfl
      rw [hone, climb?, h.parentOf?_name hmem]
      cases hp : kind.parent? with
      | none => exact ⟨_, rfl⟩
      | some p =>
        obtain ⟨parent, hparent, rfl⟩ := h.exists_earlier_parent he hp
        obtain ⟨path, hpath⟩ := ih hparent
        exact ⟨path ++ [kind.name], congrArg (Option.map (· ++ [kind.name])) hpath⟩

/-- The components of an abstract kind are found one step short of the limit. -/
theorem Sound.climb?_eq_components (h : s.Sound) (hkind : kind ∈ s.abstractKinds) :
    s.climb? s.abstractKinds.length kind.name = some (s.components kind.name) := by
  have hall : s.entries.take s.entries.length = s.entries := List.take_length
  have hmem : .ofAbstract kind ∈ s.entries.take s.entries.length :=
    hall.symm ▸ mem_abstractKinds.1 hkind
  obtain ⟨path, hpath⟩ := h.exists_climb? s.entries.length hmem
  rw [hall] at hpath
  have hfull : s.path? kind.name = some path := climb?_mono hpath (Nat.le_add_right _ _)
  rw [components, hfull]
  exact hpath

/-! ### Paths of nested kinds -/

theorem Sound.components_root (h : s.Sound) (hkind : kind ∈ s.abstractKinds)
    (hroot : kind.parent? = none) : s.components kind.name = [kind.name] := by
  rw [components, path?, climb?, h.parentOf?_name hkind, hroot]
  rfl

theorem Sound.components_nested (h : s.Sound) (hkind : kind ∈ s.abstractKinds) {p : String}
    (hp : kind.parent? = some p) :
    s.components kind.name = s.components p ++ [kind.name] := by
  obtain ⟨parent, hparent, rfl⟩ := h.exists_parent (mem_abstractKinds.1 hkind) hp
  have hpath : s.path? kind.name = some (s.components parent.name ++ [kind.name]) := by
    rw [path?, climb?, h.parentOf?_name hkind, hp]
    exact congrArg (Option.map (· ++ [kind.name])) (h.climb?_eq_components hparent)
  rw [components, hpath]
  rfl

theorem Sound.qualifiedName_root (h : s.Sound) (hkind : kind ∈ s.abstractKinds)
    (hroot : kind.parent? = none) : s.qualifiedName kind.name = kind.name := by
  rw [qualifiedName_eq, h.components_root hkind hroot, String.intercalate_singleton]

theorem Sound.qualifiedName_nested (h : s.Sound) (hkind : kind ∈ s.abstractKinds) {p : String}
    (hp : kind.parent? = some p) :
    s.qualifiedName kind.name = s.qualifiedName p ++ "::" ++ kind.name := by
  obtain ⟨front, hfront⟩ := s.exists_components_eq p
  have hne : s.components p ≠ [] := by simp [hfront]
  rw [qualifiedName_eq, h.components_nested hkind hp,
    String.intercalate_append_of_ne_nil hne (List.cons_ne_nil _ _), String.intercalate_singleton]
  rfl

/-! ### Classes of entries -/

/-- The path of the class of an entry. -/
def classPath (s : Schema) : Entry → String
  | .ofAbstract kind => s.qualifiedName kind.name
  | .ofConcrete kind => s.qualifiedName kind.parent ++ "::" ++ kind.name

/-- The class of an entry lies in the class of its parent, or outside of all. -/
theorem Sound.classPath_eq (h : s.Sound) {e : Entry} (he : e ∈ s.entries) :
    s.classPath e = match e.parent? with
      | none => e.name
      | some p => s.qualifiedName p ++ "::" ++ e.name := by
  cases e with
  | ofConcrete kind => rfl
  | ofAbstract kind =>
    have hkind := mem_abstractKinds.2 he
    show s.qualifiedName kind.name = match kind.parent? with
      | none => kind.name
      | some p => s.qualifiedName p ++ "::" ++ kind.name
    cases hp : kind.parent? with
    | none => exact h.qualifiedName_root hkind hp
    | some p => exact h.qualifiedName_nested hkind hp

/-! ### Scopes -/

theorem getLast?_qualifiedName (hname : Name.isIdentifier name = true) :
    (s.qualifiedName name).toList.getLast? ≠ some ':' := by
  obtain ⟨c, rest, hchars, -⟩ := Name.exists_toList_of_isIdentifier hname
  have hlast : name.toList.getLast? ≠ some ':' := fun hcolon =>
    Name.not_mem_of_isIdentifier hname rfl (List.mem_of_getLast? hcolon)
  rcases s.exists_qualifiedName_eq name with heq | ⟨front, heq⟩
  · rwa [heq]
  · rwa [heq, List.getLast?_append_of_ne_nil _ (by simp [hchars])]

/-- The scopes of a nested name are its innermost scope and the scopes of that. -/
theorem scope_of_nested {p scope rest : String} (hp : Name.isIdentifier p = true)
    (hname : ':' ∉ name.toList)
    (h : s.qualifiedName p ++ "::" ++ name = scope ++ "::" ++ rest) :
    (scope = s.qualifiedName p ∧ rest = name) ∨ ∃ middle,
      s.qualifiedName p = scope ++ "::" ++ middle ∧ rest = middle ++ "::" ++ name := by
  have htext := congrArg String.toList h
  rw [String.toList_append, String.toList_append, String.toList_append, String.toList_append]
    at htext
  rcases Text.eq_or_exists_middle hname (getLast?_qualifiedName hp) htext with
    ⟨hscope, hrest⟩ | ⟨middle, hscope, hrest⟩
  · exact Or.inl ⟨String.toList_inj.1 hscope, String.toList_inj.1 hrest⟩
  · exact Or.inr ⟨.ofList middle, String.toList_inj.1 (by simpa using hscope),
      String.toList_inj.1 (by simpa using hrest)⟩

/-- Every scope of the class of an entry is the class of an abstract kind before it. The
induction is on the position: the innermost scope is that of the parent. -/
theorem Sound.exists_scope (h : s.Sound) {position : Nat} {e : Entry}
    (he : s.entries[position]? = some e) {scope rest : String}
    (hscope : s.classPath e = scope ++ "::" ++ rest) :
    ∃ kind, .ofAbstract kind ∈ s.entries.take position ∧ s.qualifiedName kind.name = scope := by
  induction position using Nat.strongRecOn generalizing e rest with
  | ind position ih =>
    have hmem := List.mem_of_getElem? he
    have hcolon := Name.not_mem_of_isIdentifier (h.isIdentifier_name hmem) (c := ':') rfl
    rw [h.classPath_eq hmem] at hscope
    cases hp : e.parent? with
    | none =>
      rw [hp] at hscope
      exact absurd (by simp [show e.name = scope ++ "::" ++ rest from hscope]) hcolon
    | some p =>
      rw [hp] at hscope
      obtain ⟨parent, hparent, rfl⟩ := h.exists_earlier_parent he hp
      rcases scope_of_nested (h.isIdentifier_parent hmem hp) hcolon hscope with
        ⟨rfl, -⟩ | ⟨middle, hmiddle, -⟩
      · exact ⟨parent, hparent, rfl⟩
      · obtain ⟨outer, hlt, houter⟩ := List.mem_take_iff_getElem.1 hparent
        obtain ⟨kind, hkind, hname⟩ := ih outer (by omega)
          (List.getElem?_eq_some_iff.2 ⟨by omega, houter⟩) hmiddle
        exact ⟨kind, List.take_subset_take_left _ (by omega) hkind, hname⟩

/-- No two entries have a class of one path. -/
theorem Sound.nodup_classPaths (h : s.Sound) : (s.entries.map s.classPath).Nodup := by
  refine List.Pairwise.map _ (fun _ _ hne => hne) (h.pairwise_scope.imp_of_mem ?_)
  intro a b ha hb hne hpath
  apply hne
  have hcolon := Name.not_mem_of_isIdentifier (h.isIdentifier_name ha) (c := ':') rfl
  have hcolon' := Name.not_mem_of_isIdentifier (h.isIdentifier_name hb) (c := ':') rfl
  rw [h.classPath_eq ha, h.classPath_eq hb] at hpath
  cases hp : a.parent? with
  | none =>
    cases hq : b.parent? with
    | none => rw [hp, hq] at hpath; exact ⟨rfl, hpath⟩
    | some q =>
      rw [hp, hq] at hpath
      exact absurd (by simp [show a.name = _ ++ "::" ++ b.name from hpath]) hcolon
  | some p =>
    cases hq : b.parent? with
    | none =>
      rw [hp, hq] at hpath
      exact absurd (by simp [show b.name = _ ++ "::" ++ a.name from hpath.symm]) hcolon'
    | some q =>
      rw [hp, hq] at hpath
      obtain ⟨hscope, hlast⟩ := nested_injective (h.isIdentifier_name ha) (h.isIdentifier_name hb)
        hpath
      exact ⟨congrArg some (qualifiedName_injective (h.isIdentifier_parent ha hp)
        (h.isIdentifier_parent hb hq) hscope), hlast⟩

end VisitorGen.Schema
