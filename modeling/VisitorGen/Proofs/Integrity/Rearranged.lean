import Mathlib.Data.List.Perm.Subperm
import VisitorGen.Proofs.Integrity.Sound

/-! Rearranged schemas. Most of what is asked of a schema is asked of one entry by itself
(`Entry.Proper`) or of two entries in whatever order they stand (`Entry.Apart`). Only one thing
depends on the order: a parent stands before its children (`Schema.ParentsFirst`). A schema is
sound exactly when all three hold (`sound_iff`), and the first two survive every deletion and
every permutation. `rearranged_accepted_iff` says what that leaves to be checked of a schema
made from the entries of an accepted one. -/
namespace VisitorGen

/-- What is asked of an entry by itself. -/
structure Entry.Proper (e : Entry) : Prop where
  identifier : Name.isIdentifier e.name = true
  unreserved : ¬ (e.name ∈ Name.memberNames ∨ e.name ∈ Name.keywords)
  unlikeParent : ∀ kind ∈ e.concrete?, kind.name ≠ kind.parent
  fields : ∀ kind ∈ e.concrete?, ∀ position f, kind.fields[position]? = some f →
    ∀ rule : FieldRule, ¬ rule.Broken kind position f

/-- What is asked of two entries, whichever stands first. -/
structure Entry.Apart (a b : Entry) : Prop where
  scope : ¬ (a.parent? = b.parent? ∧ a.name = b.name)
  names : ∀ p, a.declares p = true → b.declares p = false

theorem Entry.Apart.symm {a b : Entry} (h : a.Apart b) : b.Apart a where
  scope hsame := h.scope ⟨hsame.1.symm, hsame.2.symm⟩
  names p hb := by
    rw [Bool.eq_false_iff]
    intro ha
    rw [h.names p ha] at hb
    cases hb

theorem Entry.declares_iff {e : Entry} {p : String} :
    e.declares p = true ↔ ∃ kind, e = .ofAbstract kind ∧ kind.name = p := by
  cases e <;> simp [declares]

namespace Schema

/-- Every entry that has a parent is preceded by the abstract kind of this name. -/
def ParentsFirst (s : Schema) : Prop :=
  ∀ before e after, s.entries = before ++ e :: after → ∀ p ∈ e.parent?,
    ∃ kind, .ofAbstract kind ∈ before ∧ kind.name = p

variable {s t : Schema}

/-! ### Soundness in parts -/

theorem mem_entryChecks {c : Check} (hc : c ∈ s.entryChecks) : ∃ position e,
    s.entries[position]? = some e ∧ ((∃ rule, c = .ofKind position e rule) ∨
      ∃ kind ∈ e.concrete?, ∃ place f rule, kind.fields[place]? = some f ∧
        c = .ofField kind place f rule) := by
  obtain ⟨⟨e, position⟩, he, hcheck⟩ := List.mem_flatMap.1 hc
  refine ⟨position, e, List.mem_zipIdx_iff_getElem?.1 he, ?_⟩
  rcases List.mem_append.1 hcheck with hkind | hfield
  · obtain ⟨rule, -, rfl⟩ := List.mem_map.1 hkind
    exact Or.inl ⟨rule, rfl⟩
  · cases e with
    | ofAbstract kind => cases hfield
    | ofConcrete kind =>
      obtain ⟨⟨f, place⟩, hf, hrule⟩ := List.mem_flatMap.1 hfield
      obtain ⟨rule, -, rfl⟩ := List.mem_map.1 hrule
      exact Or.inr ⟨kind, rfl, place, f, rule, List.mem_zipIdx_iff_getElem?.1 hf, rfl⟩

theorem Sound.proper (h : s.Sound) {e : Entry} (he : e ∈ s.entries) : e.Proper := by
  obtain ⟨position, hat⟩ := List.mem_iff_getElem?.1 he
  refine ⟨h.isIdentifier_name he, h.not_broken hat .unreserved, fun kind hkind hname =>
    h.not_broken hat .unlikeParent ⟨kind, hkind, hname⟩, fun kind hkind place f hf rule => ?_⟩
  cases e with
  | ofAbstract kind => cases hkind
  | ofConcrete kind =>
    cases hkind
    exact h.not_broken_field (mem_concreteKinds.2 he) hf rule

theorem Sound.pairwise_apart (h : s.Sound) : s.entries.Pairwise Entry.Apart :=
  (h.pairwise_scope.and h.pairwise_declares).imp fun ⟨hscope, hnames⟩ => ⟨hscope, hnames⟩

theorem Sound.parentsFirst (h : s.Sound) : s.ParentsFirst := by
  intro before e after hentries p hp
  have he : s.entries[before.length]? = some e := by simp [hentries]
  obtain ⟨kind, hkind, hname⟩ := h.exists_earlier_parent he hp
  rw [hentries, List.take_left] at hkind
  exact ⟨kind, hkind, hname⟩

/-- Where the entries stand apart, the position of an entry splits those apart from it. -/
theorem apart_of_getElem? (hapart : s.entries.Pairwise Entry.Apart) {position : Nat}
    {e other : Entry} (he : s.entries[position]? = some e)
    (hother : other ∈ s.entries.take position) : other.Apart e := by
  obtain ⟨place, hlt, rfl⟩ := List.mem_take_iff_getElem.1 hother
  obtain ⟨hbound, rfl⟩ := List.getElem?_eq_some_iff.1 he
  exact List.pairwise_iff_getElem.1 hapart place position (by omega) hbound (by omega)

theorem ParentsFirst.exists_earlier (hfirst : s.ParentsFirst) {position : Nat} {e : Entry}
    (he : s.entries[position]? = some e) {p : String} (hp : p ∈ e.parent?) :
    ∃ other ∈ s.entries.take position, other.declares p = true := by
  obtain ⟨hbound, rfl⟩ := List.getElem?_eq_some_iff.1 he
  have hsplit : s.entries =
      s.entries.take position ++ s.entries[position] :: s.entries.drop (position + 1) := by
    rw [List.getElem_cons_drop, List.take_append_drop]
  obtain ⟨kind, hkind, hname⟩ := hfirst _ _ _ hsplit p hp
  exact ⟨_, hkind, Entry.declares_iff.2 ⟨kind, rfl, hname⟩⟩

/-- An entry that has its parent before it and stands apart from the others breaks no rule. -/
theorem not_broken_of_parts (hproper : ∀ e ∈ s.entries, e.Proper)
    (hapart : s.entries.Pairwise Entry.Apart) (hfirst : s.ParentsFirst) {position : Nat} {e : Entry}
    (he : s.entries[position]? = some e) (rule : KindRule) : ¬ rule.Broken s position e := by
  have hown := hproper e (List.mem_of_getElem? he)
  cases rule with
  | identifier =>
    rw [KindRule.Broken, hown.identifier]
    decide
  | unreserved => exact hown.unreserved
  | unlikeParent =>
    rintro ⟨kind, hkind, hname⟩
    exact hown.unlikeParent kind hkind hname
  | aloneInScope =>
    rintro ⟨other, hother, hsame⟩
    exact (apart_of_getElem? hapart he hother).scope hsame
  | knownParent =>
    rintro ⟨p, hp, hunknown⟩
    obtain ⟨other, hother, hdeclares⟩ := hfirst.exists_earlier he hp
    rw [hunknown other (List.mem_of_mem_take hother)] at hdeclares
    cases hdeclares
  | earlierParent =>
    -- the parent that stands before the entry would be declared a second time
    rintro ⟨p, hp, late, hlate, hagain⟩
    obtain ⟨early, hearly, hdeclares⟩ := hfirst.exists_earlier he hp
    have hsplit := List.pairwise_append.1
      ((List.take_append_drop position s.entries).symm ▸ hapart)
    rw [(hsplit.2.2 early hearly late hlate).names p hdeclares] at hagain
    cases hagain

/-- **Soundness in parts**: every entry is proper, any two stand apart, and parents come first. -/
theorem sound_iff : s.Sound ↔
    (∀ e ∈ s.entries, e.Proper) ∧ s.entries.Pairwise Entry.Apart ∧ s.ParentsFirst := by
  refine ⟨fun h => ⟨fun e he => h.proper he, h.pairwise_apart, h.parentsFirst⟩,
    fun ⟨hproper, hapart, hfirst⟩ => ?_⟩
  rw [Sound, defect?_eq_first?, Check.first?_eq_none_iff]
  intro c hc
  rcases List.mem_append.1 hc with hname | hentry
  · obtain ⟨position, kind, he, rfl⟩ := mem_nameChecks.1 hname
    rintro ⟨other, hother, hdeclares⟩
    have hself := (apart_of_getElem? hapart he hother).names kind.name hdeclares
    simp [Entry.declares] at hself
  · obtain ⟨position, e, he, ⟨rule, rfl⟩ | ⟨kind, hkind, place, f, rule, hf, rfl⟩⟩ :=
      mem_entryChecks hentry
    · exact not_broken_of_parts hproper hapart hfirst he rule
    · exact (hproper e (List.mem_of_getElem? he)).fields kind hkind place f hf rule

/-! ### Deleting and permuting -/

/-- What does not depend on the order is left by any choice of the entries in any order. -/
theorem Sound.of_subperm (h : s.Sound) (hsub : t.entries.Subperm s.entries)
    (hfirst : t.ParentsFirst) : t.Sound := by
  obtain ⟨kept, hperm, hsublist⟩ := hsub
  have hapart : t.entries.Pairwise Entry.Apart :=
    (hperm.pairwise_iff fun hab => hab.symm).1 (h.pairwise_apart.sublist hsublist)
  exact sound_iff.2 ⟨fun e he => h.proper (hsublist.subset (hperm.mem_iff.2 he)), hapart, hfirst⟩

theorem ParentsFirst.of_prefix (h : s.ParentsFirst) (hbegins : t.entries <+: s.entries) :
    t.ParentsFirst := by
  obtain ⟨more, hmore⟩ := hbegins
  intro before e after hentries p hp
  exact h before e (after ++ more) (by rw [← hmore, hentries, List.append_assoc,
    List.cons_append]) p hp

/-- What was sound when it began with some entries was sound then. -/
theorem Sound.of_prefix (h : s.Sound) (hbegins : t.entries <+: s.entries) : t.Sound :=
  h.of_subperm hbegins.sublist.subperm (h.parentsFirst.of_prefix hbegins)

/-- An entry that is nobody's parent may be taken out. -/
theorem ParentsFirst.of_childless (h : s.ParentsFirst) {front back : List Entry} {e : Entry}
    (hs : s.entries = front ++ e :: back) (hchildless : ∀ kind ∈ e.abstract?,
      s.membersOf kind.name = []) (ht : t.entries = front ++ back) : t.ParentsFirst := by
  have hother : ∀ child ∈ s.entries, ∀ kind, .ofAbstract kind = e →
      child.parent? ≠ some kind.name := by
    rintro child hchild kind rfl hp
    have hmember : child ∈ s.membersOf kind.name := List.mem_filter.2 ⟨hchild, by simp [hp]⟩
    rw [hchildless kind rfl] at hmember
    cases hmember
  intro before child after hentries p hp
  have hchild : child ∈ s.entries := by
    have hmem : child ∈ t.entries := by simp [hentries]
    rw [ht, List.mem_append] at hmem
    rw [hs, List.mem_append, List.mem_cons]
    exact hmem.imp_right Or.inr
  -- the place of the child in `s`, and what stands before it there besides `before`
  obtain ⟨above, below, hsplit, habove⟩ : ∃ above below, s.entries = above ++ child :: below ∧
      ∀ x ∈ above, x ∈ before ∨ x = e := by
    rcases List.append_eq_append_iff.1 (ht ▸ hentries : front ++ back = before ++ child :: after)
      with ⟨more, rfl, hback⟩ | ⟨more, rfl, hmore⟩
    · exact ⟨front ++ e :: more, after, by rw [hs, hback]; simp, by
        simp only [List.mem_append, List.mem_cons]
        tauto⟩
    · cases more with
      | nil =>
        obtain rfl : child :: after = back := by simpa using hmore
        exact ⟨before ++ [e], after, by simp [hs], by simp⟩
      | cons first more =>
        obtain ⟨rfl, rfl⟩ : child = first ∧ after = more ++ back := by simpa using hmore
        exact ⟨before, more ++ e :: back, by simp [hs], fun x hx => Or.inl hx⟩
  obtain ⟨kind, hkind, rfl⟩ := h above child below hsplit p hp
  rcases habove _ hkind with hbefore | heq
  · exact ⟨kind, hbefore, rfl⟩
  · exact absurd hp (hother child hchild kind heq)

theorem Sound.nodup_entries (h : s.Sound) : s.entries.Nodup :=
  h.pairwise_apart.imp fun {a b} hab heq => hab.scope (by rw [heq]; exact ⟨rfl, rfl⟩)

/-- An order in which every kind comes before its members has the parents first, if no parent is
lost. -/
theorem Sound.parentsFirst_of_perm (h : s.Sound) (hperm : t.entries.Perm s.entries)
    (horder : ∀ kind ∈ t.abstractKinds, ∀ e ∈ t.membersOf kind.name,
      [.ofAbstract kind, e].Sublist t.entries) : t.ParentsFirst := by
  intro before e after hentries p hp
  have he : e ∈ t.entries := by simp [hentries]
  obtain ⟨kind, hkind, rfl⟩ := h.exists_parent (hperm.mem_iff.1 he) hp
  have hparent : kind ∈ t.abstractKinds :=
    mem_abstractKinds.2 (hperm.mem_iff.2 (mem_abstractKinds.1 hkind))
  have hmember : e ∈ t.membersOf kind.name := List.mem_filter.2 ⟨he, by simpa using hp⟩
  have hpair := horder kind hparent e hmember
  have hnodup : (before ++ e :: after).Nodup :=
    hentries ▸ hperm.nodup_iff.2 h.nodup_entries
  have hnot : e ∉ after := (List.nodup_cons.1 (List.nodup_append.1 hnodup).2.1).1
  refine ⟨kind, ?_, rfl⟩
  rw [hentries, List.sublist_append_iff] at hpair
  obtain ⟨left, right, hleft, hbefore, hright⟩ := hpair
  cases left with
  | cons first left =>
    obtain ⟨rfl, -⟩ := List.cons.inj hleft
    exact hbefore.subset List.mem_cons_self
  | nil =>
    -- then both would stand from `e` on, and `e` a second time after it
    obtain rfl : _ = right := hleft
    cases hright with
    | cons _ hlater => exact absurd (hlater.subset (by simp)) hnot
    | cons_cons _ hlater => exact absurd (hlater.subset (by simp)) hnot

/-- **Rearranging an accepted schema.** Whichever entries are taken out and however the rest is
permuted, the result is accepted exactly when every entry of it that has a parent is preceded by
the abstract kind of this name. So prefixes are accepted, schemas without some childless kind, and
all entries in any order that keeps the kinds before their members. -/
theorem rearranged_accepted_iff (hs : s.verify = .ok ()) :
    (∀ t : Schema, t.entries.Subperm s.entries → (t.verify = .ok () ↔ t.ParentsFirst)) ∧
    (∀ t : Schema, t.entries <+: s.entries → t.verify = .ok ()) ∧
    (∀ (t : Schema) (front : List Entry) (e : Entry) (back : List Entry),
      s.entries = front ++ e :: back → (∀ kind ∈ e.abstract?, s.membersOf kind.name = []) →
        t.entries = front ++ back → t.verify = .ok ()) ∧
    ∀ t : Schema, t.entries.Perm s.entries → (∀ kind ∈ t.abstractKinds,
      ∀ e ∈ t.membersOf kind.name, [.ofAbstract kind, e].Sublist t.entries) →
        t.verify = .ok () := by
  have h := sound_of_verify hs
  refine ⟨fun t hsub => ⟨fun ht => (sound_of_verify ht).parentsFirst, fun hfirst =>
    verify_eq_ok_iff.2 (h.of_subperm hsub hfirst)⟩, fun t hbegins => ?_, ?_,
    fun t hperm horder => ?_⟩
  · exact verify_eq_ok_iff.2 (h.of_prefix hbegins)
  · intro t front e back hentries hchildless ht
    have hsublist : t.entries.Sublist s.entries := by
      rw [ht, hentries]
      exact (List.Sublist.refl front).append (List.sublist_cons_self e back)
    exact verify_eq_ok_iff.2
      (h.of_subperm hsublist.subperm (h.parentsFirst.of_childless hentries hchildless ht))
  · exact verify_eq_ok_iff.2 (h.of_subperm hperm.subperm (h.parentsFirst_of_perm hperm horder))

/-! Two families of kinds: calls are nodes, and words are tokens, which are nodes as well. -/

def nodeKind : Entry := .ofAbstract (.root "Node")

def callKind : Entry := .ofConcrete ⟨"Call", [⟨"callee", "Token"⟩], "Node"⟩

def tokenKind : Entry := .ofAbstract (.nested "Token" "Node")

def wordKind : Entry := .ofConcrete ⟨"Word", [], "Token"⟩

/-- The call may come last or be left out, and so may the word after it; but no word comes before
the tokens. -/
theorem rearranged_accepted_families :
    (Schema.mk [] [nodeKind, callKind, tokenKind, wordKind]).verify = .ok () ∧
      (Schema.mk [] [nodeKind, tokenKind, wordKind, callKind]).verify = .ok () ∧
      (Schema.mk [] [nodeKind, tokenKind, wordKind]).verify = .ok () ∧
      (Schema.mk [] [nodeKind, tokenKind]).verify = .ok () ∧
      (Schema.mk [] [nodeKind, wordKind, tokenKind]).verify ≠ .ok () := by
  have hs : (Schema.mk [] [nodeKind, callKind, tokenKind, wordKind]).verify = .ok () := rfl
  obtain ⟨hiff, -, hchildless, horder⟩ := rearranged_accepted_iff hs
  have hshort := hchildless ⟨[], [nodeKind, tokenKind, wordKind]⟩ [nodeKind] callKind
    [tokenKind, wordKind] rfl (by decide) rfl
  obtain ⟨-, hbegins, -⟩ := rearranged_accepted_iff hshort
  refine ⟨hs, horder _ (by decide) (by decide), hshort,
    hbegins ⟨[], [nodeKind, tokenKind]⟩ ⟨[wordKind], rfl⟩,
    (hiff ⟨[], [nodeKind, wordKind, tokenKind]⟩ (by decide)).not.2 fun hfirst => ?_⟩
  obtain ⟨kind, hkind, hname⟩ := hfirst [nodeKind] wordKind [tokenKind] rfl "Token" rfl
  obtain rfl : kind = .root "Node" := by simpa [nodeKind] using hkind
  exact absurd hname (by decide)

end Schema
end VisitorGen
