import Mathlib.Data.List.Basic
import Mathlib.Data.List.Pairwise
import VisitorGen.Proofs.Json.Members

/-! What decoders of objects do not look at. Two values agree for a decoder when it makes the
same of both or refuses both (`Decoder.Agrees`). A record whose slots fill parts of their own
(`Record.Independent`) makes the same of its members in any order; it does not see a member
that it does not know, nor one that only says what its absence says; and it sees no difference
in a member that the decoder of its slot does not see. The same goes for a tagged value, as long
as the tag stays what it is. -/
namespace VisitorGen.Json

variable {α β σ δ τ : Type}

/-- The decoder makes the same of both values, if it makes anything of them. -/
def Decoder.Agrees (d : Decoder α) (v w : Value) : Prop :=
  (d.convert v).toOption = (d.convert w).toOption

namespace Decoder

variable {d : Decoder α} {v w : Value}

theorem Agrees.symm (h : d.Agrees v w) : d.Agrees w v := Eq.symm h

theorem Agrees.map (h : d.Agrees v w) (f : α → β) : (d.map f).Agrees v w := by
  simp only [Agrees, Decoder.map, toOption_bind]
  rw [show (d.convert v).toOption = (d.convert w).toOption from h]

/-- One item of a list may be another that agrees with it. -/
theorem agrees_list {before after : List Value} (h : d.Agrees v w) :
    d.list.Agrees (.array (before ++ v :: after)) (.array (before ++ w :: after)) := by
  have hsame : (d.convert v).toOption = (d.convert w).toOption := h
  simp only [Agrees, list, List.mapM_append, List.mapM_cons, toOption_bind, hsame]

end Decoder

/-- Steps that may be taken in either order may be taken in any order. -/
theorem foldlM_perm {f : σ → α → Option σ}
    (hcomm : ∀ s a b, (f s a).bind (f · b) = (f s b).bind (f · a)) {as bs : List α}
    (h : as.Perm bs) (s : σ) : as.foldlM f s = bs.foldlM f s := by
  induction h generalizing s with
  | nil => rfl
  | cons a _ ih =>
    rw [List.foldlM_cons, List.foldlM_cons]
    exact congrArg (f s a).bind (funext ih)
  | swap a b as =>
    simp only [List.foldlM_cons, bind]
    rw [← Option.bind_assoc, ← Option.bind_assoc, hcomm]
  | trans _ _ ih ih' => rw [ih, ih']

/-! ### Records -/

/-- What the slot may do to a draft. -/
def Slot.Fills (slot : Slot δ) (fill : δ → δ) : Prop := ∃ v, slot.decoder.convert v = .ok fill

/-- What the slot has filled counts as filled. -/
def Slot.Marks (slot : Slot δ) : Prop :=
  ∀ fill, slot.Fills fill → ∀ draft, slot.filled (fill draft) = true

/-- The slots fill different parts of a draft. -/
structure Slot.Apart (slot other : Slot δ) : Prop where
  kept : ∀ fill, slot.Fills fill → ∀ draft, other.filled (fill draft) = other.filled draft
  kept' : ∀ fill, other.Fills fill → ∀ draft, slot.filled (fill draft) = slot.filled draft
  commute : ∀ fill, slot.Fills fill → ∀ fill', other.Fills fill' → ∀ draft,
    fill (fill' draft) = fill' (fill draft)

instance : Std.Symm (Slot.Apart (δ := δ)) where
  symm _ _ h :=
    { kept := h.kept'
      kept' := h.kept
      commute := fun fill hfill fill' hfill' draft =>
        (h.commute fill' hfill' fill hfill draft).symm }

section Fills

variable {key key' : String} {filled filled' : δ → Bool} {d : Decoder α} {d' : Decoder β}
  {set : α → δ → δ} {set' : β → δ → δ}

theorem Slot.Fills.exists_map {fill : δ → δ} (h : Slot.Fills ⟨key, filled, d.map set⟩ fill) :
    ∃ a, fill = set a := by
  obtain ⟨v, hv⟩ := h
  obtain ⟨a, -, hset⟩ := bind_eq_ok.1 hv
  exact ⟨a, (Except.ok.inj hset).symm⟩

theorem Slot.marks_map (h : ∀ a draft, filled (set a draft) = true) :
    Slot.Marks ⟨key, filled, d.map set⟩ := by
  intro fill hfill draft
  obtain ⟨a, rfl⟩ := hfill.exists_map
  exact h a draft

theorem Slot.apart_map (hkept : ∀ a draft, filled' (set a draft) = filled' draft)
    (hkept' : ∀ b draft, filled (set' b draft) = filled draft)
    (hcommute : ∀ a b draft, set a (set' b draft) = set' b (set a draft)) :
    Slot.Apart ⟨key, filled, d.map set⟩ ⟨key', filled', d'.map set'⟩ where
  kept fill hfill draft := by
    obtain ⟨a, rfl⟩ := hfill.exists_map
    exact hkept a draft
  kept' fill hfill draft := by
    obtain ⟨b, rfl⟩ := hfill.exists_map
    exact hkept' b draft
  commute fill hfill fill' hfill' draft := by
    obtain ⟨a, rfl⟩ := hfill.exists_map
    obtain ⟨b, rfl⟩ := hfill'.exists_map
    exact hcommute a b draft

end Fills

namespace Record

variable {r : Record δ α} {slot : Slot δ} {members : List (String × Value)} {key : String}
  {v w : Value}

/-- The slots fill parts of their own: a part is filled by its slot, no slot empties or fills
the part of another, and two slots come to the same draft in either order. -/
structure Independent (r : Record δ α) : Prop where
  filled : ∀ slot ∈ r.slots, ∀ fill, slot.Fills fill → ∀ draft, slot.filled (fill draft) = true
  kept : ∀ slot ∈ r.slots, ∀ other ∈ r.slots, slot.key ≠ other.key → ∀ fill, slot.Fills fill →
    ∀ draft, other.filled (fill draft) = other.filled draft
  commute : ∀ slot ∈ r.slots, ∀ other ∈ r.slots, slot.key ≠ other.key → ∀ fill, slot.Fills fill →
    ∀ fill', other.Fills fill' → ∀ draft, fill (fill' draft) = fill' (fill draft)

theorem Independent.of_apart (hmarks : r.slots.Forall Slot.Marks)
    (hapart : r.slots.Pairwise Slot.Apart) : r.Independent where
  filled := List.forall_iff_forall_mem.1 hmarks
  kept _ hmem _ hmem' hkey := (hapart.forall hmem hmem' fun heq => hkey (heq ▸ rfl)).kept
  commute _ hmem _ hmem' hkey := (hapart.forall hmem hmem' fun heq => hkey (heq ▸ rfl)).commute

/-- What a member does to a draft. -/
def step (r : Record δ α) (draft : δ) (member : String × Value) : Option δ :=
  (r.convertMember draft member).toOption

theorem step_unknown (h : r.slot? key = none) (draft : δ) (v : Value) :
    r.step draft (key, v) = some draft := by
  simp [step, convertMember, h]

theorem step_known (h : r.slot? key = some slot) (draft : δ) (v : Value) :
    r.step draft (key, v) =
      if slot.filled draft then none
      else (slot.decoder.convert v).toOption.map fun fill => fill draft := by
  simp only [step, convertMember, h]
  split
  · rfl
  · cases slot.decoder.convert v <;> rfl

theorem mem_of_slot? (h : r.slot? key = some slot) : slot ∈ r.slots ∧ slot.key = key :=
  ⟨List.mem_of_find?_eq_some h, by simpa using List.find?_some h⟩

/-- A member that is met again is refused. -/
theorem step_repeated (h : r.Independent) (hslot : r.slot? key = some slot) (draft : δ) :
    (r.step draft (key, v)).bind (r.step · (key, w)) = none := by
  rw [step_known hslot]
  split
  · rfl
  · cases hv : slot.decoder.convert v with
    | error m => rfl
    | ok fill =>
      have hfilled := h.filled slot (mem_of_slot? hslot).1 fill ⟨v, hv⟩ draft
      simp [step_known hslot, hfilled]

theorem step_comm (h : r.Independent) (draft : δ) (a b : String × Value) :
    (r.step draft a).bind (r.step · b) = (r.step draft b).bind (r.step · a) := by
  obtain ⟨key, v⟩ := a
  obtain ⟨key', w⟩ := b
  cases hslot : r.slot? key with
  | none => simp [step_unknown hslot]
  | some slot =>
    cases hother : r.slot? key' with
    | none => simp [step_unknown hother]
    | some other =>
      by_cases hkey : key = key'
      · subst hkey
        rw [step_repeated h hslot, step_repeated h hslot]
      · obtain ⟨hmem, rfl⟩ := mem_of_slot? hslot
        obtain ⟨hmem', rfl⟩ := mem_of_slot? hother
        rw [step_known hslot, step_known hother]
        cases hv : slot.decoder.convert v with
        | error m =>
          have hnone (draft : δ) : r.step draft (slot.key, v) = none := by
            rw [step_known hslot, hv]
            split <;> rfl
          cases hw : other.decoder.convert w <;> split <;> simp [hnone]
        | ok fill =>
          cases hw : other.decoder.convert w with
          | error m =>
            have hnone (draft : δ) : r.step draft (other.key, w) = none := by
              rw [step_known hother, hw]
              split <;> rfl
            split <;> simp [hnone]
          | ok fill' =>
            have hkept := h.kept slot hmem other hmem' hkey fill ⟨v, hv⟩ draft
            have hkept' := h.kept other hmem' slot hmem (Ne.symm hkey) fill' ⟨w, hw⟩ draft
            have hcomm := h.commute slot hmem other hmem' hkey fill ⟨v, hv⟩ fill' ⟨w, hw⟩ draft
            cases hfilled : slot.filled draft <;> cases hfilled' : other.filled draft <;>
              simp [step_known hslot, step_known hother, hv, hw, hkept, hkept', hfilled, hfilled',
                hcomm]

theorem agrees_object {members' : List (String × Value)}
    (h : members.foldlM r.step r.empty = members'.foldlM r.step r.empty) :
    r.decoder.Agrees (.object members) (.object members') := by
  have hstep : (fun draft member => (r.convertMember draft member).toOption) = r.step := rfl
  simp only [Decoder.Agrees, decoder, convert, convertObject, toOption_bind, toOption_foldlM, hstep,
    h]

/-- The order of the members makes no difference. -/
theorem agrees_perm (h : r.Independent) {members' : List (String × Value)}
    (hperm : members.Perm members') : r.decoder.Agrees (.object members) (.object members') :=
  agrees_object (foldlM_perm (step_comm h) hperm r.empty)

theorem agrees_unknown (h : r.slot? key = none) :
    r.decoder.Agrees (.object ((key, v) :: members)) (.object members) :=
  agrees_object (by rw [List.foldlM_cons, step_unknown h]; rfl)

/-- A slot that no member is for stays empty. -/
theorem filled_of_foldlM (h : r.Independent) (hslot : slot ∈ r.slots) {draft draft' : δ}
    (habsent : ∀ member ∈ members, member.1 ≠ slot.key)
    (hfold : members.foldlM r.step draft = some draft') :
    slot.filled draft' = slot.filled draft := by
  induction members generalizing draft with
  | nil =>
    cases hfold
    rfl
  | cons member members ih =>
    obtain ⟨hmember, hmembers⟩ := List.forall_mem_cons.1 habsent
    obtain ⟨next, hstep, hfold⟩ := Option.bind_eq_some_iff.1 hfold
    rw [ih hmembers hfold]
    cases hother : r.slot? member.1 with
    | none =>
      rw [step_unknown hother] at hstep
      cases hstep
      rfl
    | some other =>
      obtain ⟨hmem, hkey⟩ := mem_of_slot? hother
      rw [step_known hother] at hstep
      split at hstep
      · cases hstep
      · cases hv : other.decoder.convert member.2 with
        | error m => simp [hv] at hstep
        | ok fill =>
          rw [hv] at hstep
          cases hstep
          exact h.kept other hmem slot hslot (hkey ▸ hmember) fill ⟨_, hv⟩ draft

/-- A member may be left out when the record is finished without it as with it. -/
theorem agrees_absent (h : r.Independent) {fill : δ → δ} (hslot : r.slot? key = some slot)
    (hfill : slot.decoder.convert v = .ok fill) (hempty : slot.filled r.empty = false)
    (hfinish : ∀ draft, slot.filled draft = false →
      r.finish lackInObject (fill draft) = r.finish lackInObject draft)
    (habsent : key ∉ members.map (·.1)) :
    r.decoder.Agrees (.object (members ++ [(key, v)])) (.object members) := by
  obtain ⟨hmem, rfl⟩ := mem_of_slot? hslot
  have habsent' : ∀ member ∈ members, member.1 ≠ slot.key := fun member hmember heq =>
    habsent (heq ▸ List.mem_map_of_mem hmember)
  have hstep : (fun draft member => (r.convertMember draft member).toOption) = r.step := rfl
  simp only [Decoder.Agrees, decoder, convert, convertObject, toOption_bind, toOption_foldlM, hstep,
    List.foldlM_append]
  cases hfold : members.foldlM r.step r.empty with
  | none => rfl
  | some draft =>
    have hunfilled : slot.filled draft = false :=
      (filled_of_foldlM h hmem habsent' hfold).trans hempty
    have hlast : [(slot.key, v)].foldlM r.step draft = some (fill draft) := by
      rw [List.foldlM_cons, step_known hslot, hunfilled, hfill]
      rfl
    show (([(slot.key, v)].foldlM r.step draft).bind fun draft => _) = _
    rw [hlast]
    exact congrArg Except.toOption (hfinish draft hunfilled)

/-- A member may be another that agrees with it. -/
theorem agrees_member {before after : List (String × Value)}
    (h : ∀ slot, r.slot? key = some slot → slot.decoder.Agrees v w) :
    r.decoder.Agrees (.object (before ++ (key, v) :: after))
      (.object (before ++ (key, w) :: after)) := by
  have hstep (draft : δ) : r.step draft (key, v) = r.step draft (key, w) := by
    cases hslot : r.slot? key with
    | none => rw [step_unknown hslot, step_unknown hslot]
    | some slot =>
      have hsame : (slot.decoder.convert v).toOption = (slot.decoder.convert w).toOption :=
        h slot hslot
      rw [step_known hslot, step_known hslot, hsame]
  refine agrees_object ?_
  simp only [List.foldlM_append, List.foldlM_cons, hstep]

theorem convertSlots_agrees {slots : List (Slot δ)} {before after : List Value}
    (h : ∀ slot, slots[before.length]? = some slot → slot.decoder.Agrees v w) (draft : δ) :
    (convertSlots slots (before ++ v :: after) draft).toOption =
      (convertSlots slots (before ++ w :: after) draft).toOption := by
  induction slots generalizing before draft with
  | nil => rfl
  | cons slot slots ih =>
    cases before with
    | nil =>
      have hsame : (slot.decoder.convert v).toOption = (slot.decoder.convert w).toOption :=
        h slot rfl
      simp only [List.nil_append, convertSlots, toOption_bind, hsame]
    | cons item before =>
      have hrest : ∀ fill : δ → δ,
          (convertSlots slots (before ++ v :: after) (fill draft)).toOption =
            (convertSlots slots (before ++ w :: after) (fill draft)).toOption :=
        fun fill => ih h (fill draft)
      simp only [List.cons_append, convertSlots, toOption_bind, hrest]

/-- In a list an item may be another that agrees with it. -/
theorem agrees_item {before after : List Value}
    (h : ∀ slot, r.slots[before.length]? = some slot → slot.decoder.Agrees v w) :
    r.decoder.Agrees (.array (before ++ v :: after)) (.array (before ++ w :: after)) := by
  have hlength : (before ++ v :: after).length = (before ++ w :: after).length := by simp
  simp only [Decoder.Agrees, decoder, convert, convertList, toOption_bind, convertSlots_agrees h,
    hlength]

end Record

/-! ### Tagged values -/

namespace Tagged

variable {t : Tagged τ α} {members members' : List (String × Value)} {key : String} {v w : Value}

/-- The tag of an object, if it has one and only one. -/
def tag? (t : Tagged τ α) (members : List (String × Value)) : Option τ :=
  match members.filter (·.1 == t.key) with
  | [(_, v)] => (t.tag.convert v).toOption
  | _ => none

/-- The members that are no tag. -/
def others (t : Tagged τ α) (members : List (String × Value)) : List (String × Value) :=
  members.filter (·.1 != t.key)

theorem toOption_convert_object (members : List (String × Value)) :
    (t.decoder.convert (.object members)).toOption =
      (t.tag? members).bind fun tag => (t.content tag (.object (t.others members))).toOption := by
  simp only [decoder, convert, convertObject, tag?]
  split <;> simp [*, others]

/-- Objects agree when they have the same tag and what is left of them agrees. -/
theorem agrees_object (htag : t.tag? members = t.tag? members')
    (hcontent : ∀ tag, t.tag? members = some tag →
      (t.content tag (.object (t.others members))).toOption =
        (t.content tag (.object (t.others members'))).toOption) :
    t.decoder.Agrees (.object members) (.object members') := by
  rw [Decoder.Agrees, toOption_convert_object, toOption_convert_object, ← htag]
  cases h : t.tag? members with
  | none => rfl
  | some tag => exact hcontent tag h

theorem tag?_perm (h : members.Perm members') : t.tag? members = t.tag? members' := by
  have htags := h.filter (·.1 == t.key)
  unfold tag?
  generalize members.filter (·.1 == t.key) = tags at htags
  generalize members'.filter (·.1 == t.key) = tags' at htags
  match tags, tags', htags.length_eq with
  | [], [], _ => rfl
  | [_], [_], _ =>
    obtain rfl := List.singleton_perm_singleton.1 htags
    rfl
  | _ :: _ :: _, _ :: _ :: _, _ => rfl

theorem tag?_other (hkey : key ≠ t.key) (before after : List (String × Value)) (v : Value) :
    t.tag? (before ++ (key, v) :: after) = t.tag? (before ++ after) := by
  simp [tag?, hkey]

theorem others_other (hkey : key ≠ t.key) (before after : List (String × Value)) (v : Value) :
    t.others (before ++ (key, v) :: after) = t.others before ++ (key, v) :: t.others after := by
  simp [others, hkey]

/-- The tag itself may be another that agrees with it. -/
theorem agrees_tag {before after : List (String × Value)} (h : t.tag.Agrees v w) :
    t.decoder.Agrees (.object (before ++ (t.key, v) :: after))
      (.object (before ++ (t.key, w) :: after)) := by
  have hsame : (t.tag.convert v).toOption = (t.tag.convert w).toOption := h
  refine agrees_object ?_ fun tag _ => by simp [others]
  simp only [tag?, List.filter_append, List.filter_cons, beq_self_eq_true, if_true]
  cases before.filter (·.1 == t.key) with
  | cons _ _ => simp
  | nil =>
    cases after.filter (·.1 == t.key) with
    | cons _ _ => rfl
    | nil => exact hsame

theorem agrees_first {items : List Value} (h : t.tag.Agrees v w) :
    t.decoder.Agrees (.array (v :: items)) (.array (w :: items)) := by
  have hsame : (t.tag.convert v).toOption = (t.tag.convert w).toOption := h
  simp only [Decoder.Agrees, decoder, convert, toOption_bind, hsame]

theorem agrees_rest {items items' : List Value}
    (hcontent : ∀ tag, t.tag.convert v = .ok tag →
      (t.content tag (.array items)).toOption = (t.content tag (.array items')).toOption) :
    t.decoder.Agrees (.array (v :: items)) (.array (v :: items')) := by
  simp only [Decoder.Agrees, decoder, convert, toOption_bind]
  cases htag : t.tag.convert v with
  | error m => rfl
  | ok tag => exact hcontent tag htag

end Tagged
end VisitorGen.Json
