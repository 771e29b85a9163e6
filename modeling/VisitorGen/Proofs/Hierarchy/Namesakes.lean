import VisitorGen.Proofs.Document.Lines
import VisitorGen.Proofs.Hierarchy.Ancestors

/-! Names that repeat on a path. An abstract kind has its name to itself among the abstract
kinds, so that its path never names one class twice, however deep it is nested
(`Sound.nodup_components`). A concrete kind is told from its parent, but not from what lies
above the parent: a path repeats a name exactly when the entry at its end is a concrete kind
named after an ancestor beyond its parent (`distinct_path_names_iff`). When that ancestor is
the outermost one, a path that is written inside the class begins with a name that is found
in the class itself. -/
namespace VisitorGen.Schema

variable {s : Schema} {kind : AbstractKind} {e : Entry}

/-! ### Abstract kinds -/

/-- Every component of a path is an abstract kind that stands no later than the last one. The
induction is on the position: the components above are those of the parent. -/
theorem Sound.exists_component (h : s.Sound) {position : Nat}
    (he : s.entries[position]? = some (.ofAbstract kind)) {c : String}
    (hc : c ∈ s.components kind.name) :
    ∃ other, .ofAbstract other ∈ s.entries.take (position + 1) ∧ other.name = c := by
  induction position using Nat.strongRecOn generalizing kind with
  | ind position ih =>
    have hkind : kind ∈ s.abstractKinds := mem_abstractKinds.2 (List.mem_of_getElem? he)
    have hself : .ofAbstract kind ∈ s.entries.take (position + 1) := by
      rw [List.take_add_one, he]
      exact List.mem_append_right _ (List.mem_singleton_self _)
    cases hp : kind.parent? with
    | none =>
      rw [h.components_root hkind hp, List.mem_singleton] at hc
      exact ⟨kind, hself, hc.symm⟩
    | some p =>
      rw [h.components_nested hkind hp, List.mem_append, List.mem_singleton] at hc
      obtain ⟨parent, hparent, rfl⟩ := h.exists_earlier_parent he hp
      rcases hc with habove | rfl
      · obtain ⟨above, hlt, hentry⟩ := List.mem_take_iff_getElem.1 hparent
        obtain ⟨other, hother, hname⟩ :=
          ih above (by omega) (List.getElem?_eq_some_iff.2 ⟨by omega, hentry⟩) habove
        exact ⟨other, List.take_subset_take_left _ (by omega) hother, hname⟩
      · exact ⟨kind, hself, rfl⟩

/-- An entry that declares a name is the first to do so. -/
theorem Sound.not_declared_before (h : s.Sound) {position : Nat}
    (he : s.entries[position]? = some (.ofAbstract kind)) {other : AbstractKind}
    (hother : .ofAbstract other ∈ s.entries.take position) : other.name ≠ kind.name := by
  intro hname
  obtain ⟨before, hlt, hbefore⟩ := List.mem_take_iff_getElem.1 hother
  obtain ⟨hbound, hat⟩ := List.getElem?_eq_some_iff.1 he
  have hpair := List.pairwise_iff_getElem.1 h.pairwise_declares before position (by omega) hbound
    (by omega) kind.name
  rw [hbefore, hat] at hpair
  simp [Entry.declares, hname] at hpair

/-- **Paths of abstract kinds**: no class that holds only abstract kinds on its way is nested
inside a class of its own name. -/
theorem Sound.nodup_components (h : s.Sound) (hkind : kind ∈ s.abstractKinds) :
    (s.components kind.name).Nodup := by
  obtain ⟨position, he⟩ := List.mem_iff_getElem?.1 (mem_abstractKinds.1 hkind)
  induction position using Nat.strongRecOn generalizing kind with
  | ind position ih =>
    cases hp : kind.parent? with
    | none =>
      rw [h.components_root hkind hp]
      exact List.nodup_singleton _
    | some p =>
      obtain ⟨parent, hparent, rfl⟩ := h.exists_earlier_parent he hp
      obtain ⟨above, hlt, hentry⟩ := List.mem_take_iff_getElem.1 hparent
      have habove : s.entries[above]? = some (.ofAbstract parent) :=
        List.getElem?_eq_some_iff.2 ⟨by omega, hentry⟩
      have hfront := ih above (by omega) (mem_abstractKinds.2 (List.mem_of_getElem? habove)) habove
      rw [h.components_nested hkind hp, List.nodup_append]
      refine ⟨hfront, List.nodup_singleton _, ?_⟩
      intro c hc c' hc' heq
      obtain rfl : c = kind.name := heq.trans (List.mem_singleton.1 hc')
      obtain ⟨other, hother, hname⟩ := h.exists_component habove hc
      exact h.not_declared_before he (List.take_subset_take_left _ (by omega) hother) hname

/-! ### Paths of entries -/

/-- The names on the path of an entry, outermost first: those of its ancestors and its own. -/
def pathNames (s : Schema) (e : Entry) : List String := e.parent?.elim [] s.components ++ [e.name]

/-- Inside the class of the entry the outermost name of its path is found further in. -/
def Captured (s : Schema) (e : Entry) : Prop :=
  ∃ name ∈ (s.pathNames e).tail, (s.pathNames e).head? = some name

instance (s : Schema) (e : Entry) : Decidable (s.Captured e) :=
  inferInstanceAs (Decidable (∃ name ∈ _, _ = _))

/-- The path of an abstract kind is the one that its name is qualified with. -/
theorem Sound.pathNames_abstract (h : s.Sound) (hkind : kind ∈ s.abstractKinds) :
    s.pathNames (.ofAbstract kind) = s.components kind.name := by
  show kind.parent?.elim [] s.components ++ [kind.name] = _
  cases hp : kind.parent? with
  | none => rw [h.components_root hkind hp]; rfl
  | some p => rw [h.components_nested hkind hp]; rfl

/-- The path as it is written has the names of the path for components. -/
theorem Sound.classPath_eq_pathNames (h : s.Sound) (he : e ∈ s.entries) :
    s.classPath e = String.intercalate "::" (s.pathNames e) := by
  cases e with
  | ofAbstract kind =>
    rw [h.pathNames_abstract (mem_abstractKinds.2 he)]
    rfl
  | ofConcrete kind =>
    obtain ⟨front, hfront⟩ := s.exists_components_eq kind.parent
    have hne : s.components kind.parent ≠ [] := by simp [hfront]
    show s.qualifiedName kind.parent ++ "::" ++ kind.name =
      String.intercalate "::" (s.components kind.parent ++ [kind.name])
    rw [String.intercalate_append_of_ne_nil hne (List.cons_ne_nil _ _),
      String.intercalate_singleton]
    rfl

/-- The parent is the one ancestor that a concrete kind is told from. -/
theorem Sound.name_ne_parent (h : s.Sound) {kind : ConcreteKind} (hkind : kind ∈ s.concreteKinds) :
    kind.name ≠ kind.parent := by
  obtain ⟨position, he⟩ := List.mem_iff_getElem?.1 (mem_concreteKinds.1 hkind)
  exact fun hname => h.not_broken he .unlikeParent ⟨kind, rfl, hname⟩

/-- The path of a concrete kind repeats a name exactly when an ancestor beyond its parent has
the name of the kind. -/
theorem Sound.nodup_pathNames_concrete (h : s.Sound) {kind : ConcreteKind}
    (hkind : kind ∈ s.concreteKinds) :
    (s.pathNames (.ofConcrete kind)).Nodup ↔ kind.name ∉ (s.components kind.parent).dropLast := by
  obtain ⟨parent, hparent, hname⟩ := h.exists_parent (mem_concreteKinds.1 hkind) rfl
  have habove : (s.components kind.parent).Nodup := hname ▸ h.nodup_components hparent
  obtain ⟨front, hfront⟩ := s.exists_components_eq kind.parent
  show (s.components kind.parent ++ [kind.name]).Nodup ↔ _
  rw [List.nodup_append_comm, List.singleton_append, List.nodup_cons, and_iff_left habove, hfront,
    List.dropLast_concat, List.mem_append, List.mem_singleton, or_iff_left (h.name_ne_parent hkind)]

theorem Sound.captured_concrete (h : s.Sound) {kind : ConcreteKind}
    (hkind : kind ∈ s.concreteKinds) :
    s.Captured (.ofConcrete kind) ↔ (s.components kind.parent).head? = some kind.name := by
  obtain ⟨parent, hparent, hname⟩ := h.exists_parent (mem_concreteKinds.1 hkind) rfl
  have habove : (s.components kind.parent).Nodup := hname ▸ h.nodup_components hparent
  obtain ⟨front, hfront⟩ := s.exists_components_eq kind.parent
  show (∃ name ∈ (s.components kind.parent ++ [kind.name]).tail,
    (s.components kind.parent ++ [kind.name]).head? = some name) ↔ _
  cases hpath : s.components kind.parent with
  | nil => simp [hpath] at hfront
  | cons outer inner =>
    have houter : outer ∉ inner := (List.nodup_cons.1 (hpath ▸ habove)).1
    simp [houter]

/-- **Distinct names on a path.** In an accepted schema the path of an entry is written with
the names of its ancestors and its own. They are distinct unless the entry is a concrete kind
named after an ancestor beyond its parent, and then they are not. The class captures the
outermost name of its path exactly when it is the outermost ancestor whose name it has. -/
theorem distinct_path_names_iff (h : s.verify = .ok ()) (he : e ∈ s.entries) :
    s.classPath e = String.intercalate "::" (s.pathNames e) ∧
      ((s.pathNames e).Nodup ↔ ∀ kind ∈ e.concrete?,
        kind.name ∉ (s.components kind.parent).dropLast) ∧
      (s.Captured e ↔ ∃ kind ∈ e.concrete?,
        (s.components kind.parent).head? = some kind.name) := by
  have hs := sound_of_verify h
  refine ⟨hs.classPath_eq_pathNames he, ?_⟩
  cases e with
  | ofConcrete kind =>
    have hkind := mem_concreteKinds.2 he
    simpa [Entry.concrete?] using
      And.intro (hs.nodup_pathNames_concrete hkind) (hs.captured_concrete hkind)
  | ofAbstract kind =>
    have hnodup : (s.pathNames (.ofAbstract kind)).Nodup := by
      rw [hs.pathNames_abstract (mem_abstractKinds.2 he)]
      exact hs.nodup_components (mem_abstractKinds.2 he)
    have hfree : ¬ s.Captured (.ofAbstract kind) := by
      intro hcaptured
      obtain ⟨name, htail, hhead⟩ := hcaptured
      obtain ⟨inner, hpath⟩ := List.head?_eq_some_iff.1 hhead
      rw [hpath] at hnodup htail
      exact (List.nodup_cons.1 hnodup).1 htail
    simpa [Entry.concrete?] using And.intro hnodup hfree

theorem distinct_path_names_nestedCall :
    nestedCall.verify = .ok () ∧
      ∃ e ∈ nestedCall.entries, nestedCall.pathNames e = ["Node", "Expr", "Call"] ∧
        (nestedCall.pathNames e).Nodup ∧ ¬ nestedCall.Captured e := by
  have he : .ofConcrete ⟨"Call", [⟨"callee", "std::function<int(int)>"⟩], "Expr"⟩ ∈
      nestedCall.entries := by decide
  obtain ⟨-, hnodup, hcaptured⟩ := distinct_path_names_iff nestedCall_verify he
  exact ⟨nestedCall_verify, _, he, rfl, hnodup.2 (by decide), hcaptured.not.2 (by decide)⟩

/-- A sound schema with a kind that is named after the parent of its parent. -/
def innerNamesake : Schema where
  includes := []
  entries :=
    [.ofAbstract (.root "A"), .ofAbstract (.nested "B" "A"), .ofConcrete ⟨"A", [], "B"⟩]

/-- A class inside a class of its own name passes every check, and the header declares it. The
scope of its visitor, looked up inside it, begins with its own name. -/
theorem innerNamesake_repeats :
    innerNamesake.verify = .ok () ∧
      ∃ e ∈ innerNamesake.entries, innerNamesake.pathNames e = ["A", "B", "A"] ∧
        ¬ (innerNamesake.pathNames e).Nodup ∧ innerNamesake.Captured e ∧
        "struct A::B::A : A::B" ∈ innerNamesake.header.lines ∧
        "    void accept(A::B::Visitor& visitor) const override;" ∈ innerNamesake.header.lines :=
  ⟨rfl, .ofConcrete ⟨"A", [], "B"⟩, by decide, by decide, by decide, by decide, by decide,
    by decide⟩

end VisitorGen.Schema
