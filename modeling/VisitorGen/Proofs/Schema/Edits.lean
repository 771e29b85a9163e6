import VisitorGen.Proofs.Integrity.Rearranged
import VisitorGen.Schema.Edit

/-! Edits of a sound schema: which of them leave it sound. A new entry has to fit where it is put
(`FitsAt`): it is in order by itself, can be told from all others, and has its parent before it.
So a schema is sound just if it grew by entries that fitted (`sound_push_iff`). An entry may be
taken out if it is nobody's parent, and may be moved where that leaves parents first. To replace
an entry is to take it out and to put the new one in its place (`replaceAt_eq`). -/
namespace VisitorGen.Schema

variable {s : Schema} {e : Entry} {i j : Nat}

/-- The entry may be put at the place. -/
structure FitsAt (s : Schema) (i : Nat) (e : Entry) : Prop where
  proper : e.Proper
  apart : ∀ other ∈ s.entries, e.Apart other
  parent : ∀ p ∈ e.parent?, ∃ kind, .ofAbstract kind ∈ s.entries.take i ∧ kind.name = p

/-! ### Entries after an edit -/

theorem perm_insertAt (s : Schema) (i : Nat) (e : Entry) :
    (s.insertAt i e).entries.Perm (e :: s.entries) := by
  have hmiddle : (s.insertAt i e).entries.Perm (e :: (s.entries.take i ++ s.entries.drop i)) :=
    List.perm_middle
  rwa [List.take_append_drop] at hmiddle

theorem push_eq_insertAt (s : Schema) (e : Entry) :
    s.push e = s.insertAt s.entries.length e := by
  rw [push, insertAt, List.take_length, List.drop_length]

theorem entries_removeAt (s : Schema) (i : Nat) :
    (s.removeAt i).entries = s.entries.take i ++ s.entries.drop (i + 1) :=
  List.eraseIdx_eq_take_drop_succ ..

theorem entries_eq_of_getElem? (he : s.entries[i]? = some e) :
    s.entries = s.entries.take i ++ e :: s.entries.drop (i + 1) := by
  obtain ⟨hi, rfl⟩ := List.getElem?_eq_some_iff.1 he
  rw [List.getElem_cons_drop, List.take_append_drop]

theorem perm_move (s : Schema) (i j : Nat) : (s.move i j).entries.Perm s.entries := by
  rw [move]
  split
  · exact .refl _
  · rename_i e he
    refine (perm_insertAt _ j e).trans ?_
    rw [entries_removeAt]
    exact List.perm_middle.symm.trans (.of_eq (entries_eq_of_getElem? he).symm)

/-- A replacement takes the old entry out and puts the new one in its place. -/
theorem replaceAt_eq (hi : i < s.entries.length) (e : Entry) :
    s.replaceAt i e = (s.removeAt i).insertAt i e := by
  have hlength : (s.entries.take i).length = i := by simp; omega
  rw [replaceAt, insertAt, entries_removeAt, List.take_left' hlength, List.drop_left' hlength,
    List.set_eq_take_append_cons_drop, if_pos hi]
  rfl

/-! ### Soundness after an edit -/

theorem ParentsFirst.insertAt (h : s.ParentsFirst)
    (he : ∀ p ∈ e.parent?, ∃ kind, .ofAbstract kind ∈ s.entries.take i ∧ kind.name = p) :
    (s.insertAt i e).ParentsFirst := by
  have hsplit : s.entries = s.entries.take i ++ s.entries.drop i :=
    (List.take_append_drop i s.entries).symm
  intro before child after hentries p hp
  -- the child is the new entry, or what stood before it in `s` still does
  rcases List.append_eq_append_iff.1 (hentries : s.entries.take i ++ e :: s.entries.drop i = _) with
    ⟨more, rfl, hmore⟩ | ⟨more, hfront, hmore⟩
  · cases more with
    | nil =>
      obtain ⟨rfl, -⟩ : e = child ∧ s.entries.drop i = after := by simpa using hmore
      simpa using he p hp
    | cons first more =>
      obtain ⟨rfl, hback⟩ : e = first ∧ s.entries.drop i = more ++ child :: after := by
        simpa using hmore
      obtain ⟨kind, hkind, hname⟩ := h (s.entries.take i ++ more) child after
        (by rw [List.append_assoc, ← hback, ← hsplit]) p hp
      refine ⟨kind, ?_, hname⟩
      rw [List.mem_append] at hkind ⊢
      exact hkind.imp_right (List.mem_cons_of_mem e)
  · cases more with
    | nil =>
      obtain ⟨rfl, -⟩ : child = e ∧ after = s.entries.drop i := by simpa using hmore
      rw [List.append_nil] at hfront
      rw [← hfront]
      exact he p hp
    | cons first more =>
      obtain ⟨rfl, -⟩ := List.cons.inj hmore
      exact h before child (more ++ s.entries.drop i)
        (by rw [← List.cons_append, ← List.append_assoc, ← hfront, ← hsplit]) p hp

theorem Sound.fitsAt (h : (s.insertAt i e).Sound) : s.FitsAt i e := by
  have hmem : e ∈ (s.insertAt i e).entries := List.mem_append_right _ List.mem_cons_self
  have hapart := ((perm_insertAt s i e).pairwise_iff fun hab => hab.symm).1 h.pairwise_apart
  exact ⟨h.proper hmem, (List.pairwise_cons.1 hapart).1, h.parentsFirst _ e _ rfl⟩

/-- A sound schema takes an entry just where it fits. -/
theorem sound_insertAt_iff (h : s.Sound) : (s.insertAt i e).Sound ↔ s.FitsAt i e := by
  refine ⟨Sound.fitsAt, fun hfits => sound_iff.2 ⟨fun a ha => ?_, ?_, ?_⟩⟩
  · rcases List.mem_cons.1 ((perm_insertAt s i e).mem_iff.1 ha) with rfl | ha
    · exact hfits.proper
    · exact h.proper ha
  · exact ((perm_insertAt s i e).pairwise_iff fun hab => hab.symm).2
      (List.pairwise_cons.2 ⟨hfits.apart, h.pairwise_apart⟩)
  · exact h.parentsFirst.insertAt hfits.parent

/-- A schema that grew by one entry was sound before, and the entry fits at its end. -/
theorem sound_push_iff : (s.push e).Sound ↔ s.Sound ∧ s.FitsAt s.entries.length e := by
  constructor
  · intro h
    have hs : s.Sound := h.of_prefix (List.prefix_append _ _)
    rw [push_eq_insertAt] at h
    exact ⟨hs, h.fitsAt⟩
  · rintro ⟨h, hfits⟩
    rw [push_eq_insertAt]
    exact (sound_insertAt_iff h).2 hfits

/-- An entry may be taken out of a sound schema just if it is nobody's parent. -/
theorem sound_removeAt_iff (h : s.Sound) (he : s.entries[i]? = some e) :
    (s.removeAt i).Sound ↔ ∀ kind ∈ e.abstract?, s.membersOf kind.name = [] := by
  have hsplit := entries_eq_of_getElem? he
  have hnodup := hsplit ▸ h.nodup_entries
  rw [List.nodup_middle, List.nodup_cons] at hnodup
  constructor
  · intro hremoved kind hkind
    obtain rfl : e = .ofAbstract kind := by
      cases e with
      | ofAbstract other => cases hkind; rfl
      | ofConcrete other => cases hkind
    refine List.eq_nil_iff_forall_not_mem.2 fun child hchild => hnodup.1 ?_
    rw [← entries_removeAt]
    -- a child has its parent among the rest, and by its name that is the one taken out
    obtain ⟨hchild, hparent⟩ : child ∈ s.entries ∧ child.parent? = some kind.name := by
      simpa using List.mem_filter.1 hchild
    obtain ⟨other, hother, hname⟩ : ∃ other,
        .ofAbstract other ∈ (s.removeAt i).entries ∧ other.name = kind.name := by
      rw [hsplit, List.mem_append, List.mem_cons, or_left_comm] at hchild
      rcases hchild with rfl | hrest
      · obtain ⟨other, hother, hname⟩ := h.exists_earlier_parent he hparent
        exact ⟨other, entries_removeAt s i ▸ List.mem_append_left _ hother, hname⟩
      · rw [← List.mem_append, ← entries_removeAt] at hrest
        obtain ⟨other, hother, hname⟩ := hremoved.exists_parent hrest hparent
        exact ⟨other, mem_abstractKinds.1 hother, hname⟩
    have hkept := mem_abstractKinds.2 ((List.eraseIdx_sublist ..).subset hother)
    have hhere := mem_abstractKinds.2 (List.mem_of_getElem? he)
    rwa [List.inj_on_of_nodup_map h.nodup_abstractNames hkept hhere hname] at hother
  · intro hchildless
    have hsublist : (s.removeAt i).entries.Sublist s.entries := List.eraseIdx_sublist ..
    exact h.of_subperm hsublist.subperm
      (h.parentsFirst.of_childless hsplit hchildless (entries_removeAt s i))

/-- An entry may go anywhere in a sound schema where that leaves parents first. -/
theorem sound_move_iff (h : s.Sound) : (s.move i j).Sound ↔ (s.move i j).ParentsFirst :=
  ⟨Sound.parentsFirst, h.of_subperm (perm_move s i j).subperm⟩

end VisitorGen.Schema
