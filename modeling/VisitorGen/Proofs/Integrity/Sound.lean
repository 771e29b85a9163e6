import Mathlib.Data.List.Nodup
import VisitorGen.Proofs.Integrity.Checklist

/-! What the soundness of a schema gives: none of its checks fails, so that every name is
an identifier, every parent an abstract kind of the schema, and kinds are told apart by
their scopes and names. -/
namespace VisitorGen.Schema

variable {s : Schema}

theorem sound_of_verify (h : s.verify = .ok ()) : s.Sound := verify_eq_ok_iff.1 h

theorem Sound.not_fails (h : s.Sound) : ∀ c ∈ s.checks, ¬ c.Fails s := by
  rw [Sound, defect?_eq_first?] at h
  exact Check.first?_eq_none_iff.1 h

theorem Sound.not_broken (h : s.Sound) {position : Nat} {e : Entry}
    (he : s.entries[position]? = some e) (rule : KindRule) : ¬ rule.Broken s position e := by
  refine h.not_fails (.ofKind position e rule) (List.mem_append_right _ (List.mem_flatMap.2
    ⟨(e, position), List.mem_zipIdx_iff_getElem?.2 he, List.mem_append_left _ ?_⟩))
  exact List.mem_map_of_mem (by cases rule <;> decide)

theorem mem_concreteKinds {kind : ConcreteKind} :
    kind ∈ s.concreteKinds ↔ .ofConcrete kind ∈ s.entries := by
  rw [concreteKinds, List.mem_filterMap]
  constructor
  · rintro ⟨_ | _, he, ⟨⟩⟩
    exact he
  · exact fun h => ⟨_, h, rfl⟩

theorem mem_abstractKinds {kind : AbstractKind} :
    kind ∈ s.abstractKinds ↔ .ofAbstract kind ∈ s.entries := by
  rw [abstractKinds, List.mem_filterMap]
  constructor
  · rintro ⟨_ | _, he, ⟨⟩⟩
    exact he
  · exact fun h => ⟨_, h, rfl⟩

theorem Sound.not_broken_field (h : s.Sound) {kind : ConcreteKind} (hkind : kind ∈ s.concreteKinds)
    {position : Nat} {f : Field} (hf : kind.fields[position]? = some f) (rule : FieldRule) :
    ¬ rule.Broken kind position f := by
  obtain ⟨place, hplace⟩ := List.mem_iff_getElem?.1 (mem_concreteKinds.1 hkind)
  refine h.not_fails (.ofField kind position f rule) (List.mem_append_right _ (List.mem_flatMap.2
    ⟨(_, place), List.mem_zipIdx_iff_getElem?.2 hplace, List.mem_append_right _
      (List.mem_flatMap.2 ⟨(f, position), List.mem_zipIdx_iff_getElem?.2 hf, ?_⟩)⟩))
  exact List.mem_map_of_mem (by cases rule <;> decide)

/-! ### Names -/

theorem Sound.isIdentifier_name (h : s.Sound) {e : Entry} (he : e ∈ s.entries) :
    Name.isIdentifier e.name = true := by
  obtain ⟨position, he⟩ := List.mem_iff_getElem?.1 he
  exact Bool.not_eq_false _ ▸ h.not_broken he .identifier

theorem Sound.isIdentifier_field (h : s.Sound) {kind : ConcreteKind}
    (hkind : kind ∈ s.concreteKinds) {f : Field} (hf : f ∈ kind.fields) :
    Name.isIdentifier f.name = true := by
  obtain ⟨position, hf⟩ := List.mem_iff_getElem?.1 hf
  exact Bool.not_eq_false _ ▸ h.not_broken_field hkind hf .identifier

/-- A parent is an abstract kind of the schema. -/
theorem Sound.exists_parent (h : s.Sound) {e : Entry} (he : e ∈ s.entries) {p : String}
    (hp : e.parent? = some p) : ∃ kind ∈ s.abstractKinds, kind.name = p := by
  obtain ⟨position, he⟩ := List.mem_iff_getElem?.1 he
  have hknown := h.not_broken he .knownParent
  simp only [KindRule.Broken, hp, Option.mem_def, Option.some.injEq, exists_eq_left', not_forall,
    Bool.not_eq_false] at hknown
  obtain ⟨other, hother, hdeclares⟩ := hknown
  cases other with
  | ofConcrete kind => cases hdeclares
  | ofAbstract kind =>
    exact ⟨kind, mem_abstractKinds.2 hother, by simpa [Entry.declares] using hdeclares⟩

/-- The parent of an entry stands before it. -/
theorem Sound.exists_earlier_parent (h : s.Sound) {position : Nat} {e : Entry}
    (he : s.entries[position]? = some e) {p : String} (hp : e.parent? = some p) :
    ∃ kind, .ofAbstract kind ∈ s.entries.take position ∧ kind.name = p := by
  obtain ⟨kind, hkind, hname⟩ := h.exists_parent (List.mem_of_getElem? he) hp
  have hentry := mem_abstractKinds.1 hkind
  rw [← List.take_append_drop position s.entries, List.mem_append] at hentry
  refine ⟨kind, hentry.resolve_right fun hlate => ?_, hname⟩
  exact h.not_broken he .earlierParent ⟨p, hp, _, hlate, by simp [Entry.declares, hname]⟩

theorem Sound.isIdentifier_parent (h : s.Sound) {e : Entry} (he : e ∈ s.entries) {p : String}
    (hp : e.parent? = some p) : Name.isIdentifier p = true := by
  obtain ⟨kind, hkind, rfl⟩ := h.exists_parent he hp
  exact h.isIdentifier_name (mem_abstractKinds.1 hkind)

/-! ### Scopes -/

/-- No two entries share both their parent and their name. -/
theorem Sound.pairwise_scope (h : s.Sound) :
    s.entries.Pairwise fun a b => ¬ (a.parent? = b.parent? ∧ a.name = b.name) := by
  rw [List.pairwise_iff_getElem]
  intro i j hi hj hij hsame
  have hbroken := h.not_broken (List.getElem?_eq_getElem hj) .aloneInScope
  exact hbroken ⟨_, List.mem_take_iff_getElem.2 ⟨i, by omega, rfl⟩, hsame⟩

/-- A concrete kind is told by its parent and its name. -/
theorem Sound.nodup_concreteKinds (h : s.Sound) :
    (s.concreteKinds.map fun kind => (kind.parent, kind.name)).Nodup := by
  refine List.Pairwise.map _ ?_ (h.pairwise_scope.filterMap (S := fun a b =>
    ¬ (a.parent = b.parent ∧ a.name = b.name)) _ ?_)
  · rintro a b hne heq
    exact hne (by simpa using heq)
  · rintro (a | a) (b | b) hne _ ⟨⟩ _ ⟨⟩ ⟨hparent, hname⟩
    exact hne ⟨congrArg some hparent, hname⟩

/-- No two entries declare one abstract name. -/
theorem Sound.pairwise_declares (h : s.Sound) :
    s.entries.Pairwise fun a b => ∀ p, a.declares p = true → b.declares p = false := by
  rw [List.pairwise_iff_getElem]
  intro i j hi hj hij p hp
  refine not_declares_drop (fun c hc => h.not_fails c (List.mem_append_left _ hc))
    (List.mem_take_iff_getElem.2 ⟨i, by omega, rfl⟩) hp
    (List.mem_drop_iff_getElem.2 ⟨0, by omega, rfl⟩)

/-- An abstract kind is told by its name alone. -/
theorem Sound.nodup_abstractNames (h : s.Sound) : (s.abstractKinds.map (·.name)).Nodup := by
  refine List.Pairwise.map _ (fun _ _ hne => hne) (h.pairwise_declares.filterMap
    (S := fun a b : AbstractKind => a.name ≠ b.name) _ ?_)
  rintro (a | a) (b | b) hdeclares _ ⟨⟩ _ ⟨⟩ hname
  simpa [Entry.declares, hname] using hdeclares a.name

end VisitorGen.Schema
