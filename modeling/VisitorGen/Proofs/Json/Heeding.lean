import VisitorGen.Proofs.Json.Invariance
import VisitorGen.Proofs.Json.Thorough

/-! Decoders that heed all of a value. A record passes over the members that it does not know, and
those may hold anything. Where there are none of them, a record is thorough, and it converts only
values that hold no numbers and few brackets: such a value can be read from any of its texts. Both
together are what it means to heed a value (`Decoder.Heeds`).

A decoder that heeds a value reads in a well-formed text of it what it converts the value to, and
fails on the text when it refuses the value (`Decoder.Heeds.read_eq_ok_iff`); whether the text can
be read need not be asked. -/
namespace VisitorGen.Json

variable {α β δ τ : Type} {n depth : Nat} {text cs rest : List Char} {v : Value}

/-! ### Records -/

namespace Record

variable {r : Record δ α} {member : String × Value} {slot : Slot δ}

theorem thoroughStep_scanMember (hslot : r.slot? member.1 = some slot)
    (hfaithful : slot.decoder.Faithful) (h : slot.decoder.ThoroughTo depth member.2) :
    ThoroughStep (r.scanMember n) n depth member := by
  intro draft draft' cs left text rest last hstring hcolon hvalue hrest hstep
  obtain ⟨_, hstring', hstep⟩ := bind_eq_ok.1 hstep
  cases hstring.symm.trans hstring'
  simp only [hslot] at hstep
  split at hstep
  · cases hstep
  · obtain ⟨_, hcolon', hstep⟩ := bind_eq_ok.1 hstep
    cases hcolon.symm.trans hcolon'
    obtain ⟨⟨fill, left'⟩, hscan, hstep⟩ := bind_eq_ok.1 hstep
    cases hstep
    exact h.spaced hfaithful hvalue hrest rfl hscan

/-- Where there is another element and yet the list is closed after the slots, the element is
scanned by the first of them. -/
theorem scanSlots_more {slots : List (Slot δ)} {first : Bool} {draft draft' : δ}
    {next left last : List Char} (hnext : nextElement .kept first cs = .ok (.more next))
    (hscan : scanSlots n slots first draft cs = .ok (draft', left))
    (hclose : skipSpace left = ']' :: last) : ∃ slot slots' fill left', slots = slot :: slots' ∧
      slot.decoder.scan n next = .ok (fill, left') ∧
      scanSlots n slots' false (fill draft) left' = .ok (draft', left) := by
  cases slots with
  | nil =>
    cases hscan
    obtain ⟨c, _, hcs, hc, -⟩ := nextElement_eq_more_iff.1 hnext
    cases hcs.symm.trans hclose
    exact absurd rfl hc
  | cons slot slots =>
    obtain ⟨_, hnext', hscan⟩ := bind_eq_ok.1 hscan
    cases hnext.symm.trans hnext'
    obtain ⟨⟨fill, left'⟩, hitem, hscan⟩ := bind_eq_ok.1 hscan
    exact ⟨slot, slots, fill, left', rfl, hitem, hscan⟩

theorem reads_of_scanSlots {items : List Value} (h : Commas (Spaced (Formed depth)) text items)
    {slots : List (Slot δ)} (hfaithful : ∀ slot ∈ slots, slot.decoder.Faithful)
    (hslots : ∀ pair ∈ slots.zip items, pair.1.decoder.ThoroughTo depth pair.2) {first : Bool}
    {draft draft' : δ} {left last : List Char}
    (hnext : nextElement .kept first cs = .ok (.more (skipSpace (text ++ ']' :: rest))))
    (hscan : scanSlots n slots first draft cs = .ok (draft', left))
    (hclose : skipSpace left = ']' :: last) : Commas (Spaced (Reads n)) text items := by
  induction h generalizing slots first draft cs with
  | last hfirst =>
    obtain ⟨slot, slots, fill, left', rfl, hitem, -⟩ := scanSlots_more hnext hscan hclose
    have hslot := hslots _ List.mem_cons_self
    exact .last (hslot.spaced (hfaithful slot List.mem_cons_self) hfirst (ends_list rest)
      (skipSpace_skipSpace _) hitem).1
  | @more text more item items hfirst htexts ih =>
    rw [List.append_assoc] at hnext
    obtain ⟨slot, slots, fill, left', rfl, hitem, hscan⟩ := scanSlots_more hnext hscan hclose
    obtain ⟨hfaithful', hfaithfuls⟩ := List.forall_mem_cons.1 hfaithful
    obtain ⟨hslot, hslots⟩ := List.forall_mem_cons.1 hslots
    obtain ⟨hreads, hleft⟩ := Decoder.ThoroughTo.spaced hslot hfaithful' hfirst (ends_comma _)
      (skipSpace_skipSpace _) hitem
    have hnext' := nextElement_comma (hleft.trans (skipSpace_cons rfl _))
      (htexts.formed_first (']' :: rest))
    exact .more hreads (ih hfaithfuls hslots hnext' hscan)

theorem finishScan_eq_ok {lack : Nat → String → Mismatch} {draft : δ} {a : α}
    (h : r.finishScan lack draft cs = .ok (a, rest)) : rest = cs := by
  unfold finishScan at h
  split at h <;> cases h
  rfl

/-- A record is thorough when its slots are on what they are given and no member is left without
a slot. -/
theorem thorough_decoder (hfaithful : r.Faithful)
    (hitems : ∀ items, v = .array items →
      ∀ pair ∈ r.slots.zip items, pair.1.decoder.Thorough pair.2)
    (hmembers : ∀ members, v = .object members → ∀ member ∈ members, ∃ slot,
      r.slot? member.1 = some slot ∧ slot.decoder.Thorough member.2) : r.decoder.Thorough v := by
  intro depth n text cs rest result htext hrest hcs hscan
  simp only [decoder, scan] at hscan
  split at hscan
  · rename_i left hopen
    obtain ⟨n, rfl, hnested⟩ := nested_eq_ok_iff.1 hscan
    obtain ⟨last, hlist, hclose⟩ := enclose_eq_ok_iff.1 hnested
    obtain ⟨⟨draft, last'⟩, hslots, hfinish⟩ := bind_eq_ok.1 hlist
    obtain rfl := finishScan_eq_ok hfinish
    refine htext.reads_of_list (hcs.symm.trans hopen) fun depth body items hv hbody hleft => ?_
    subst hleft
    exact reads_of_scanSlots hbody hfaithful (fun pair hpair => hitems items hv pair hpair depth)
      (nextElement_first (hbody.formed_first _)) hslots (closeList_eq_ok_iff.1 hclose)
  · rename_i left hopen
    obtain ⟨n, rfl, hnested⟩ := nested_eq_ok_iff.1 hscan
    obtain ⟨last, hobject, -⟩ := enclose_eq_ok_iff.1 hnested
    obtain ⟨⟨draft, last'⟩, hfold, -⟩ := bind_eq_ok.1 hobject
    refine htext.reads_of_object (hcs.symm.trans hopen) fun depth body members hv hbody hleft => ?_
    subst hleft
    refine hbody.reads_of_foldMembers (fun member hmember => ?_) hfold
    obtain ⟨slot, hslot, hthorough⟩ := hmembers members hv member hmember
    exact thoroughStep_scanMember hslot (hfaithful slot (mem_of_slot? hslot).1) (hthorough depth)
  · cases hscan

end Record

/-! ### Tagged values -/

namespace Tagged

variable {t : Tagged τ α}

theorem thoroughStep_scanMember (hfaithful : t.tag.Faithful) (hstrict : t.tag.Strict)
    (member : String × Value) : ThoroughStep (t.scanMember n) n depth member := by
  intro draft draft' cs left text rest last hstring hcolon hvalue hrest hstep
  obtain ⟨_, hstring', hstep⟩ := bind_eq_ok.1 hstep
  cases hstring.symm.trans hstring'
  dsimp only at hstep
  by_cases hkey : member.1 = t.key
  · rw [if_pos hkey] at hstep
    split at hstep
    · cases hstep
    obtain ⟨_, hcolon', hstep⟩ := bind_eq_ok.1 hstep
    cases hcolon.symm.trans hcolon'
    obtain ⟨⟨tag, left'⟩, hscan, hstep⟩ := bind_eq_ok.1 hstep
    cases hstep
    exact (hstrict.thorough _ depth).spaced hfaithful hvalue hrest rfl hscan
  · rw [if_neg hkey] at hstep
    obtain ⟨_, hcolon', hstep⟩ := bind_eq_ok.1 hstep
    cases hcolon.symm.trans hcolon'
    obtain ⟨⟨w, left'⟩, hread, hstep⟩ := bind_eq_ok.1 hstep
    cases hstep
    exact (Decoder.thorough_any _ depth).spaced Decoder.faithful_any hvalue hrest rfl hread

theorem reads_of_scanList (hfaithful : t.tag.Faithful) (hstrict : t.tag.Strict) {items : List Value}
    (h : Commas (Spaced (Formed depth)) text items) {result : (τ × Value) × List Char}
    (hscan : t.scanList n (text ++ ']' :: rest) = .ok result) :
    Commas (Spaced (Reads n)) text items := by
  obtain ⟨last, hscan, -⟩ := enclose_eq_ok_iff.1 hscan
  obtain ⟨_, hnext, hmore⟩ := bind_eq_ok.1 hscan
  cases (nextElement_first (h.formed_first (']' :: rest))).symm.trans hnext
  obtain ⟨⟨tag, left⟩, htag, hmore⟩ := bind_eq_ok.1 hmore
  obtain ⟨⟨values, left'⟩, hvalues, -⟩ := bind_eq_ok.1 hmore
  cases h with
  | last hfirst =>
    exact .last ((hstrict.thorough _ depth).spaced hfaithful hfirst (ends_list rest)
      (skipSpace_skipSpace _) htag).1
  | more hfirst htexts =>
    rw [List.append_assoc] at htag
    obtain ⟨hreads, hleft⟩ := (hstrict.thorough _ depth).spaced hfaithful hfirst
      (ends_comma _) (skipSpace_skipSpace _) htag
    have hnext := nextElement_comma (hleft.trans (skipSpace_cons rfl _))
      (htexts.formed_first (']' :: rest))
    exact .more hreads (htexts.reads_of_elementsRead Decoder.faithful_any
      (fun item _ => Decoder.thorough_any item depth) hnext (elements_eq_ok_iff.1 hvalues))

/-- A tagged value keeps all its members, so it is thorough when its tag is strict. -/
theorem thorough_decoder (hfaithful : t.tag.Faithful) (hstrict : t.tag.Strict) (v : Value) :
    t.decoder.Thorough v := by
  intro depth n text cs rest result htext hrest hcs hscan
  dsimp only [decoder, scan] at hscan
  split at hscan
  · rename_i left hopen
    obtain ⟨_, hnested, -⟩ := bind_eq_ok.1 hscan
    obtain ⟨n, rfl, hlist⟩ := nested_eq_ok_iff.1 hnested
    refine htext.reads_of_list (hcs.symm.trans hopen) fun depth body items hv hbody hleft => ?_
    subst hleft
    exact reads_of_scanList hfaithful hstrict hbody hlist
  · rename_i left hopen
    obtain ⟨_, hnested, -⟩ := bind_eq_ok.1 hscan
    obtain ⟨n, rfl, hobject⟩ := nested_eq_ok_iff.1 hnested
    obtain ⟨last, hinner, -⟩ := enclose_eq_ok_iff.1 hobject
    obtain ⟨⟨draft, last'⟩, hfold, -⟩ := bind_eq_ok.1 hinner
    refine htext.reads_of_object (hcs.symm.trans hopen) fun depth body members hv hbody hleft => ?_
    subst hleft
    exact hbody.reads_of_foldMembers
      (fun member _ => thoroughStep_scanMember hfaithful hstrict member) hfold
  · cases hscan

end Tagged

/-! ### Values that are converted -/

/-- The decoder heeds all of the value: no text of it is scanned that cannot be read, and it is
not converted if it holds a number or if more brackets are open in it at once. -/
structure Decoder.Heeds (d : Decoder α) (depth : Nat) (v : Value) : Prop where
  thorough : d.Thorough v
  plain : ∀ a, d.convert v = .ok a → v.Plain depth

namespace Decoder

variable {d : Decoder α}

theorem Heeds.map (h : d.Heeds depth v) (f : α → β) : (d.map f).Heeds depth v where
  thorough := h.thorough.map f
  plain b hb := by
    obtain ⟨a, ha, -⟩ := bind_eq_ok.1 hb
    exact h.plain a ha

theorem heeds_string (v : Value) : string.Heeds 0 v where
  thorough := (strict_text _).thorough v
  plain s hs := by
    cases v with
    | string => trivial
    | _ => cases hs

theorem heeds_optional_string (v : Value) : (optional string).Heeds 0 v where
  thorough := (strict_optional (strict_text _)).thorough v
  plain s? hs := by
    cases v with
    | null | string => trivial
    | _ => cases hs

theorem Heeds.mono {depth' : Nat} (h : d.Heeds depth v) (hdepth : depth ≤ depth') :
    d.Heeds depth' v where
  thorough := h.thorough
  plain a ha := (h.plain a ha).mono hdepth

theorem exists_of_mapM {ε : Type} {f : α → Except ε β} {as : List α} {bs : List β}
    (h : as.mapM f = .ok bs) : ∀ a ∈ as, ∃ b, f a = .ok b := by
  induction as generalizing bs with
  | nil => exact nofun
  | cons a as ih =>
    rw [List.mapM_cons] at h
    obtain ⟨b, hb, h⟩ := bind_eq_ok.1 h
    obtain ⟨bs, hbs, -⟩ := bind_eq_ok.1 h
    exact List.forall_mem_cons.2 ⟨⟨b, hb⟩, ih hbs⟩

theorem heeds_list (hd : d.Faithful)
    (h : ∀ items, v = .array items → ∀ item ∈ items, d.Heeds depth item) :
    d.list.Heeds (depth + 1) v where
  thorough := thorough_list hd fun items hv item hitem => (h items hv item hitem).thorough
  plain as has := by
    cases v with
    | array items =>
      intro item hitem
      obtain ⟨a, ha⟩ := exists_of_mapM has item hitem
      exact (h items rfl item hitem).plain a ha
    | _ => cases has

end Decoder

namespace Record

variable {r : Record δ α}

/-- All members that have a slot are converted. -/
theorem exists_of_foldlM {members : List (String × Value)} {draft draft' : δ}
    (h : members.foldlM r.convertMember draft = .ok draft') : ∀ member ∈ members, ∀ slot,
      r.slot? member.1 = some slot → ∃ fill, slot.decoder.convert member.2 = .ok fill := by
  induction members generalizing draft with
  | nil => exact nofun
  | cons member members ih =>
    rw [List.foldlM_cons] at h
    obtain ⟨next, hnext, h⟩ := bind_eq_ok.1 h
    refine List.forall_mem_cons.2 ⟨fun slot hslot => ?_, ih h⟩
    simp only [convertMember, hslot] at hnext
    split at hnext
    · cases hnext
    · obtain ⟨fill, hfill, -⟩ := bind_eq_ok.1 hnext
      exact ⟨fill, hfill⟩

/-- All items that have a slot are converted. -/
theorem exists_of_convertSlots {slots : List (Slot δ)} {items : List Value} {draft draft' : δ}
    (h : convertSlots slots items draft = .ok draft') :
    ∀ pair ∈ slots.zip items, ∃ fill, pair.1.decoder.convert pair.2 = .ok fill := by
  induction slots generalizing items draft with
  | nil => exact nofun
  | cons slot slots ih =>
    cases items with
    | nil => exact nofun
    | cons item items =>
      obtain ⟨fill, hfill, h⟩ := bind_eq_ok.1 h
      exact List.forall_mem_cons.2 ⟨⟨fill, hfill⟩, ih h⟩

theorem exists_slot? {key : String} (h : key ∈ r.slots.map (·.key)) :
    ∃ slot, r.slot? key = some slot := by
  obtain ⟨slot, hmem, rfl⟩ := List.mem_map.1 h
  exact Option.isSome_iff_exists.1 (List.find?_isSome.2 ⟨slot, hmem, beq_self_eq_true _⟩)

/-- A record heeds a value when no member is left without a slot, given what it takes for its
slots to heed what they get. -/
theorem heeds_decoder (P : String → Value → Prop) (hfaithful : r.Faithful)
    (hslots : ∀ slot ∈ r.slots, ∀ v, P slot.key v → slot.decoder.Heeds depth v)
    (hitems : ∀ items, v = .array items → ∀ pair ∈ r.slots.zip items, P pair.1.key pair.2)
    (hmembers : ∀ members, v = .object members → ∀ member ∈ members,
      member.1 ∈ r.slots.map (·.key) ∧ P member.1 member.2) : r.decoder.Heeds (depth + 1) v := by
  have hpair : ∀ items, v = .array items → ∀ pair ∈ r.slots.zip items,
      pair.1.decoder.Heeds depth pair.2 := fun items hv pair hpair =>
    hslots pair.1 (List.of_mem_zip hpair).1 pair.2 (hitems items hv pair hpair)
  have hslot : ∀ members, v = .object members → ∀ member ∈ members, ∃ slot,
      r.slot? member.1 = some slot ∧ slot.decoder.Heeds depth member.2 := by
    intro members hv member hmember
    obtain ⟨hkey, hP⟩ := hmembers members hv member hmember
    obtain ⟨slot, hslot⟩ := exists_slot? hkey
    obtain ⟨hmem, hkey⟩ := mem_of_slot? hslot
    exact ⟨slot, hslot, hslots slot hmem member.2 (hkey ▸ hP)⟩
  refine ⟨thorough_decoder hfaithful (fun items hv pair h => (hpair items hv pair h).thorough)
    fun members hv member hmember => ?_, fun a ha => ?_⟩
  · obtain ⟨slot, hslot, hheeds⟩ := hslot members hv member hmember
    exact ⟨slot, hslot, hheeds.thorough⟩
  cases v with
  | array items =>
    obtain ⟨draft, hdraft, h⟩ := bind_eq_ok.1 ha
    obtain ⟨b, -, h⟩ := bind_eq_ok.1 h
    have hlength : items.length ≤ r.slots.length := by
      by_contra hlong
      rw [if_pos (Nat.lt_of_not_le hlong)] at h
      cases h
    intro item hitem
    -- Every item has a slot, since there are no more items than slots.
    rw [← List.map_snd_zip hlength] at hitem
    obtain ⟨pair, hzip, rfl⟩ := List.mem_map.1 hitem
    obtain ⟨fill, hfill⟩ := exists_of_convertSlots hdraft pair hzip
    exact (hpair items rfl pair hzip).plain fill hfill
  | object members =>
    obtain ⟨draft, hdraft, -⟩ := bind_eq_ok.1 ha
    intro member hmember
    obtain ⟨slot, hslot, hheeds⟩ := hslot members rfl member hmember
    obtain ⟨fill, hfill⟩ := exists_of_foldlM hdraft member hmember slot hslot
    exact hheeds.plain fill hfill
  | _ => cases ha

/-- Slots that heed all values ask for nothing but that every member has a slot. -/
theorem heeds_decoder_of_slots (hfaithful : r.Faithful)
    (hslots : ∀ slot ∈ r.slots, ∀ v, slot.decoder.Heeds depth v)
    (hkeys : ∀ members, v = .object members → ∀ member ∈ members,
      member.1 ∈ r.slots.map (·.key)) : r.decoder.Heeds (depth + 1) v :=
  heeds_decoder (fun _ _ => True) hfaithful (fun slot hslot v _ => hslots slot hslot v)
    (fun _ _ _ _ => trivial) fun members hv member hmember =>
      ⟨hkeys members hv member hmember, trivial⟩

end Record

/-! ### Texts that are read -/

theorem ScalarWritten.written (h : ScalarWritten text v) (k : Nat) : Written k text v := by
  cases k with
  | zero => exact h
  | succ k => exact Or.inl h

/-- A text of a plain value holds no number, so nothing keeps it from being read. -/
theorem Formed.written {k : Nat} (h : Formed n text v) (hv : v.Plain k) : Written k text v := by
  have hscalar : ∀ {text v k}, ScalarFormed text v → v.Plain k → Written k text v := by
    intro text v k h hv
    cases h with
    | written h => exact h.written k
    | numeral => exact (Value.not_plain_number k _ hv).elim
  induction n generalizing text v k with
  | zero => exact hscalar h hv
  | succ n ih =>
    rcases h with h | h
    · exact hscalar h hv
    cases k with
    | zero => cases h <;> exact hv.elim
    | succ k =>
      refine Or.inr ?_
      cases h with
      | emptyArray hgap => exact .emptyArray hgap
      | emptyObject hgap => exact .emptyObject hgap
      | array hitems =>
        exact .array (hitems.imp fun item hitem text h => h.imp fun _ h => ih h (hv item hitem))
      | object hmembers =>
        exact .object (hmembers.imp fun member hmember text h =>
          h.imp fun _ h => ih h (hv member hmember))

/-- What a decoder that heeds the value reads in a text of it is what it converts the value to. -/
theorem Decoder.Heeds.read_eq_ok_iff {d : Decoder α} (h : d.Heeds depth v) (hd : d.Faithful)
    (hdepth : depth ≤ nestingLimit) {text : String} (htext : Spaced (Formed n) text.toList v)
    {a : α} : d.read text = .ok a ↔ d.convert v = .ok a := by
  have hiff : Spaced (Reads nestingLimit) text.toList v →
      (d.read text = .ok a ↔ d.convert v = .ok a) := fun hreads => by
    rw [← toOption_eq_some_iff, hd.toOption_read_of_reads hreads, toOption_eq_some_iff]
  constructor
  · intro hread
    have hscan : ∃ rest, d.scan nestingLimit text.toList = .ok (a, rest) := by
      rw [read] at hread
      split at hread
      · cases hread
      · rename_i hscan
        split at hread <;> cases hread
        exact ⟨_, hscan⟩
    obtain ⟨rest, hscan⟩ := hscan
    have hreads := (h.thorough n).spaced hd htext ends_nil (by rw [List.append_nil]) hscan
    exact (hiff hreads.1).1 hread
  · intro hconvert
    refine (hiff ?_).2 hconvert
    exact htext.imp fun _ h' => (h'.written (h.plain a hconvert)).reads hdepth

end VisitorGen.Json
