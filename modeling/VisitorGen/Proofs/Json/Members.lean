import VisitorGen.Json.Tagged
import VisitorGen.Proofs.Json.Faithful
import VisitorGen.Proofs.Json.Skipping

/-! Faithful decoders of objects. A record and a tagged value go through the members of an
object one by one, and so does what they do with the members that have been read: a step on
the text is matched with a step on the member (`foldMembers_faithful`). Both may be written
as lists as well. -/
namespace VisitorGen.Json

variable {α σ δ τ : Type}

theorem toOption_foldlM {ε : Type} (f : σ → α → Except ε σ) (s : σ) (as : List α) :
    (as.foldlM f s).toOption = as.foldlM (fun s a => (f s a).toOption) s := by
  induction as generalizing s with
  | nil => rfl
  | cons a as ih =>
    rw [List.foldlM_cons, List.foldlM_cons, toOption_bind]
    cases f s a with
    | error e => rfl
    | ok s' => exact ih s'

/-- Going through the members of a text with a step is going through the members that are
read from it, when each step does the same with either. -/
theorem foldMembers_faithful {n : Nat} (step : σ → Scan σ)
    (convert : σ → String × Value → Option σ)
    (hstep : ∀ {s : σ} {cs left left' rest : List Char} {key : String} {v : Value},
      string cs = .ok (key, left) → colon left = .ok ((), left') → value n left' = .ok (v, rest) →
      (step s cs).toOption = (convert s (key, v)).map fun s' => (s', rest))
    {steps : Nat} {first : Bool} {before all : List (String × Value)} {cs rest : List Char}
    (h : foldMembers .kept (keepMember (value n)) steps first before cs = .ok (all, rest)) :
    ∃ members, all = before ++ members ∧ ∀ s,
      (foldMembers .kept step steps first s cs).toOption =
        (members.foldlM convert s).map fun s' => (s', rest) := by
  rw [foldMembers_eq_ok_iff] at h
  induction h with
  | @stop _ _ _ hnext =>
    refine ⟨[], (List.append_nil _).symm, fun s => ?_⟩
    rw [foldMembers, hnext]
    rfl
  | @more _ _ _ _ _ before _ hnext hmember _ ih =>
    obtain ⟨key, left, left', v, hkey, hcolon, hvalue, rfl⟩ := keepMember_eq_ok_iff.1 hmember
    obtain ⟨members, rfl, hmembers⟩ := ih
    refine ⟨(key, v) :: members, List.append_assoc _ _ _, fun s => ?_⟩
    rw [foldMembers, hnext, List.foldlM_cons]
    simp only [toOption_bind, toOption_ok, Option.bind_some, hstep hkey hcolon hvalue]
    cases convert s (key, v) with
    | none => rfl
    | some s' => exact hmembers s'

/-! ### Records -/

namespace Record
variable {r : Record δ α}

/-- The slots of the record read faithfully. -/
def Faithful (r : Record δ α) : Prop := ∀ slot ∈ r.slots, slot.decoder.Faithful

theorem scanMember_faithful (h : r.Faithful) {n : Nat} {draft : δ} {cs left left' rest : List Char}
    {key : String} {v : Value} (hkey : string cs = .ok (key, left))
    (hcolon : colon left = .ok ((), left')) (hvalue : value n left' = .ok (v, rest)) :
    (r.scanMember n draft cs).toOption =
      (r.convertMember draft (key, v)).toOption.map fun draft' => (draft', rest) := by
  simp only [scanMember, hkey, convertMember, toOption_bind, toOption_ok, Option.bind_some]
  cases hslot : r.slot? key with
  | none =>
    simp only [hcolon, skip_of_value hvalue, toOption_bind, toOption_ok, Option.bind_some]
    rfl
  | some slot =>
    have hslot' := h slot (List.mem_of_find?_eq_some hslot) hvalue
    cases hfilled : slot.filled draft with
    | true =>
      simp only [hfilled, if_true]
      rfl
    | false =>
      simp only [hfilled, hcolon, hslot', Bool.false_eq_true, if_false, toOption_bind,
        toOption_ok, Option.bind_some]
      cases slot.decoder.convert v <;> rfl

theorem scanObject_faithful (h : r.Faithful) {n : Nat} {left last rest : List Char}
    {members : List (String × Value)}
    (hmembers : foldMembers .kept (keepMember (value n)) (left.length + 1) true [] left =
      .ok (members, last)) (hclose : skipSpace last = '\x7d' :: rest) :
    (r.scanObject n left).toOption = (r.convertObject members).toOption.map fun a => (a, rest) := by
  obtain ⟨_, rfl, hfold⟩ := foldMembers_faithful (r.scanMember n)
    (fun draft member => (r.convertMember draft member).toOption) (scanMember_faithful h) hmembers
  simp only [scanObject, toOption_enclose, toOption_bind, hfold, convertObject, toOption_foldlM]
  cases members.foldlM (fun draft member => (r.convertMember draft member).toOption) r.empty with
  | none => rfl
  | some draft =>
    simp only [Option.map_some, Option.bind_some, finishScan]
    cases r.finish lackInObject draft with
    | error m => rfl
    | ok a =>
      simp only [toOption_ok, Option.bind_some, closeObject_eq_ok_iff.2 hclose, Option.map_some]

/-- There are as many elements as slots or fewer: of a longer list the reader leaves
something before the closing bracket. -/
theorem scanSlots_faithful {slots : List (Slot δ)} (h : ∀ slot ∈ slots, slot.decoder.Faithful)
    {n steps : Nat} {first : Bool} {cs last rest : List Char} {items : List Value}
    (hitems : elements .kept (value n) steps first cs = .ok (items, last))
    (hclose : skipSpace last = ']' :: rest) (draft : δ) :
    ((scanSlots n slots first draft cs).toOption.bind fun (draft', left) =>
      (Bracket.list.close left).toOption.map fun ((), left') => (draft', left')) =
    if slots.length < items.length then none
    else (convertSlots slots items draft).toOption.map fun draft' => (draft', rest) := by
  rw [elements_eq_ok_iff] at hitems
  induction slots generalizing steps first cs items draft with
  | nil =>
    cases hitems with
    | stop hnext =>
      obtain ⟨left, hcs, rfl⟩ := nextElement_eq_stop_iff.1 hnext
      rw [skipSpace_cons rfl] at hclose
      simp [scanSlots, convertSlots, closeList_eq_ok_iff.2 (hcs.trans hclose)]
    | more hnext =>
      obtain ⟨c, left, hcs, hc, -⟩ := nextElement_eq_more_iff.1 hnext
      have hopen : (Bracket.list.close cs).toOption = none := by
        cases hend : Bracket.list.close cs with
        | error fault => rfl
        | ok result =>
          rw [closeList_eq_ok_iff.1 hend] at hcs
          exact absurd (List.cons.inj hcs).1.symm hc
      simp [scanSlots, hopen]
  | cons slot slots ih =>
    obtain ⟨hslot, hslots⟩ := List.forall_mem_cons.1 h
    cases hitems with
    | stop hnext =>
      rw [scanSlots, hnext]
      simp [convertSlots, closeList_eq_ok_iff.2 hclose]
    | more hnext hvalue hmore =>
      rw [scanSlots, hnext]
      simp only [convertSlots, toOption_bind, toOption_ok, Option.bind_some, hslot hvalue,
        List.length_cons, Nat.add_lt_add_iff_right]
      cases slot.decoder.convert _ with
      | error m => simp
      | ok fill =>
        have htail := ih hslots hmore (fill draft)
        simpa using htail

theorem scanList_faithful (h : r.Faithful) {n : Nat} {left last rest : List Char}
    {items : List Value}
    (hitems : elements .kept (value n) (left.length + 1) true left = .ok (items, last))
    (hclose : skipSpace last = ']' :: rest) :
    (r.scanList n left).toOption = (r.convertList items).toOption.map fun a => (a, rest) := by
  have hslots := scanSlots_faithful h hitems hclose r.empty
  -- The draft is finished before the bracket is closed, but either may come first.
  have hswap : (r.scanList n left).toOption =
      ((scanSlots n r.slots true r.empty left).toOption.bind fun (draft, left') =>
        (Bracket.list.close left').toOption.map fun ((), left'') => (draft, left'')).bind
          fun (draft, left') => (r.finish r.lackInList draft).toOption.map fun a => (a, left') := by
    simp only [scanList, toOption_enclose, toOption_bind]
    cases (scanSlots n r.slots true r.empty left).toOption with
    | none => rfl
    | some result =>
      obtain ⟨draft, left'⟩ := result
      cases hfinish : r.finish r.lackInList draft <;>
        cases hend : Bracket.list.close left' <;> simp [finishScan, hfinish, hend]
  rw [hswap, hslots, convertList]
  simp only [toOption_bind]
  split
  · cases convertSlots r.slots items r.empty with
    | error m => rfl
    | ok draft =>
      simp only [toOption_ok, Option.bind_some]
      cases r.finish r.lackInList draft <;> rfl
  · cases convertSlots r.slots items r.empty with
    | error m => rfl
    | ok draft =>
      simp only [toOption_ok, Option.bind_some, Option.map_some]
      cases r.finish r.lackInList draft <;> rfl

/-- A record is faithful when its slots are. -/
theorem faithful_decoder (h : r.Faithful) : r.decoder.Faithful := by
  intro n cs rest v hvalue
  have hother : ∀ {c left}, skipSpace cs = c :: left → c ≠ '[' → c ≠ '\x7b' →
      (r.scan n cs).toOption = none := fun hcs hlist hobject => by
    simp [scan, hcs, hlist, hobject]
  cases value_eq_ok_iff.1 hvalue with
  | scalar hcs hlist hobject hscalar =>
    rw [decoder, hother hcs hlist hobject]
    cases scalar_eq_ok_iff.1 hscalar <;> rfl
  | @array n left last items hcs hitems hclose =>
    simp only [decoder, scan, hcs, nested, convert]
    exact scanList_faithful h hitems hclose
  | @object n left last members hcs hmembers hclose =>
    simp only [decoder, scan, hcs, nested, convert]
    exact scanObject_faithful h hmembers hclose

end Record

/-! ### Tagged values -/

namespace Tagged
variable {t : Tagged τ α}

/-- What a member does to the draft of a tagged value. -/
def convertMember (t : Tagged τ α) (draft : Draft τ) (member : String × Value) :
    Option (Draft τ) :=
  if member.1 = t.key then
    if draft.1.isSome then none
    else (t.tag.convert member.2).toOption.map fun tag => (some tag, draft.2)
  else some (draft.1, draft.2 ++ [member])

theorem scanMember_faithful (h : t.tag.Faithful) {n : Nat} {draft : Draft τ}
    {cs left left' rest : List Char} {key : String} {v : Value} (hkey : string cs = .ok (key, left))
    (hcolon : colon left = .ok ((), left')) (hvalue : value n left' = .ok (v, rest)) :
    (t.scanMember n draft cs).toOption =
      (t.convertMember draft (key, v)).map fun draft' => (draft', rest) := by
  simp only [scanMember, hkey, convertMember, toOption_bind, toOption_ok, Option.bind_some]
  split
  · split
    · rfl
    · simp only [hcolon, h hvalue, toOption_bind, toOption_ok, Option.bind_some]
      cases t.tag.convert v <;> rfl
  · simp only [hcolon, hvalue, toOption_bind, toOption_ok, Option.bind_some]
    rfl

theorem convertMember_tag {draft : Draft τ} {member : String × Value} (hkey : member.1 = t.key) :
    t.convertMember draft member = if draft.1.isSome then none
      else (t.tag.convert member.2).toOption.map fun tag => (some tag, draft.2) := if_pos hkey

theorem convertMember_other {draft : Draft τ} {member : String × Value} (hkey : member.1 ≠ t.key) :
    t.convertMember draft member = some (draft.1, draft.2 ++ [member]) := if_neg hkey

theorem filter_tag {member : String × Value} (hkey : member.1 = t.key)
    (members : List (String × Value)) :
    (member :: members).filter (·.1 == t.key) = member :: members.filter (·.1 == t.key) ∧
      (member :: members).filter (·.1 != t.key) = members.filter (·.1 != t.key) := by
  simp [hkey]

theorem filter_other {member : String × Value} (hkey : member.1 ≠ t.key)
    (members : List (String × Value)) :
    (member :: members).filter (·.1 == t.key) = members.filter (·.1 == t.key) ∧
      (member :: members).filter (·.1 != t.key) = member :: members.filter (·.1 != t.key) := by
  simp [hkey]

/-- Once the tag is known, no other may follow. -/
theorem foldlM_convertMember_some (tag : τ) (others members : List (String × Value)) :
    members.foldlM t.convertMember (some tag, others) =
      if members.filter (·.1 == t.key) = [] then some (some tag, others ++ members) else none := by
  induction members generalizing others with
  | nil => simp
  | cons member members ih =>
    rw [List.foldlM_cons]
    by_cases hkey : member.1 = t.key
    · rw [(filter_tag hkey members).1, convertMember_tag hkey]
      simp
    · rw [(filter_other hkey members).1, convertMember_other hkey]
      simp [ih]

/-- Of the members one has to be the tag, and the others are kept in their order. -/
theorem foldlM_convertMember_none (others members : List (String × Value)) :
    (members.foldlM t.convertMember (none, others)).bind
      (fun draft => draft.1.map fun tag => (tag, draft.2)) =
    match members.filter (·.1 == t.key) with
    | [(_, v)] => (t.tag.convert v).toOption.map fun tag =>
      (tag, others ++ members.filter (·.1 != t.key))
    | _ => none := by
  induction members generalizing others with
  | nil => rfl
  | cons member members ih =>
    rw [List.foldlM_cons]
    by_cases hkey : member.1 = t.key
    · rw [convertMember_tag hkey, (filter_tag hkey members).1, (filter_tag hkey members).2]
      cases hmore : members.filter (·.1 == t.key) with
      | cons next more =>
        cases t.tag.convert member.2 <;> simp [foldlM_convertMember_some, hmore]
      | nil =>
        have hall : members.filter (·.1 != t.key) = members := by
          refine List.filter_eq_self.2 fun other hother => ?_
          have hfilter := List.filter_eq_nil_iff.1 hmore other hother
          simpa using hfilter
        cases htag : t.tag.convert member.2 <;>
          simp [foldlM_convertMember_some, hmore, hall, htag]
    · rw [convertMember_other hkey, (filter_other hkey members).1, (filter_other hkey members).2]
      simp [ih]

theorem scanObject_faithful (h : t.tag.Faithful) {n : Nat} {left last rest : List Char}
    {members : List (String × Value)}
    (hmembers : foldMembers .kept (keepMember (value n)) (left.length + 1) true [] left =
      .ok (members, last)) (hclose : skipSpace last = '\x7d' :: rest) :
    (t.scanObject n left).toOption =
      match members.filter (·.1 == t.key) with
      | [(_, v)] => (t.tag.convert v).toOption.map fun tag =>
        ((tag, .object (members.filter (·.1 != t.key))), rest)
      | _ => none := by
  obtain ⟨_, rfl, hfold⟩ := foldMembers_faithful (t.scanMember n) t.convertMember
    (scanMember_faithful h) hmembers
  -- The tag is asked for before the bracket is closed.
  have hscan : (t.scanObject n left).toOption =
      ((members.foldlM t.convertMember (none, [])).bind fun draft =>
        draft.1.map fun tag => (tag, draft.2)).map fun (tag, others) =>
          ((tag, .object others), rest) := by
    simp only [scanObject, toOption_enclose, toOption_bind, hfold]
    cases members.foldlM t.convertMember (none, []) with
    | none => rfl
    | some draft =>
      obtain ⟨tag?, others⟩ := draft
      cases tag? <;> simp [closeObject_eq_ok_iff.2 hclose]
  rw [hscan, foldlM_convertMember_none]
  split
  · cases t.tag.convert _ <;> rfl
  · rfl

theorem scanList_faithful (h : t.tag.Faithful) {n : Nat} {left last rest : List Char}
    {items : List Value}
    (hitems : elements .kept (value n) (left.length + 1) true left = .ok (items, last))
    (hclose : skipSpace last = ']' :: rest) :
    (t.scanList n left).toOption =
      match items with
      | [] => none
      | v :: vs => (t.tag.convert v).toOption.map fun tag => ((tag, .array vs), rest) := by
  cases elements_eq_ok_iff.1 hitems with
  | stop hnext =>
    rw [scanList, toOption_enclose, hnext]
    rfl
  | @more _ _ _ _ left' v vs hnext hvalue hmore =>
    have hrest := elements_steps (value_shrinks n) (elements_eq_ok_iff.2 hmore)
      (Nat.lt_succ_self left'.length)
    simp only [scanList, toOption_enclose, toOption_bind, hnext, toOption_ok, Option.bind_some,
      h hvalue]
    cases t.tag.convert v with
    | error m => rfl
    | ok tag => simp [hrest, closeList_eq_ok_iff.2 hclose]

/-- A tagged value is faithful when its tag is. -/
theorem faithful_decoder (h : t.tag.Faithful) : t.decoder.Faithful := by
  intro n cs rest v hvalue
  have hother : ∀ {c left}, skipSpace cs = c :: left → c ≠ '[' → c ≠ '\x7b' →
      (t.scan n cs).toOption = none := fun hcs hlist hobject => by
    simp [scan, hcs, hlist, hobject]
  cases value_eq_ok_iff.1 hvalue with
  | scalar hcs hlist hobject hscalar =>
    rw [decoder, hother hcs hlist hobject]
    cases scalar_eq_ok_iff.1 hscalar <;> rfl
  | @array n left last items hcs hitems hclose =>
    simp only [decoder, scan, hcs, nested, toOption_bind, scanList_faithful h hitems hclose]
    cases items with
    | nil => rfl
    | cons v vs =>
      simp only [convert, toOption_bind]
      cases t.tag.convert v with
      | error m => rfl
      | ok tag =>
        simp only [toOption_ok, Option.map_some, Option.bind_some]
        cases t.content tag (.array vs) <;> rfl
  | @object n left last members hcs hmembers hclose =>
    simp only [decoder, scan, hcs, nested, toOption_bind, convert, convertObject,
      scanObject_faithful h hmembers hclose]
    cases members.filter (·.1 == t.key) with
    | nil => rfl
    | cons member more =>
      cases more with
      | cons other more => rfl
      | nil =>
        simp only [toOption_bind]
        cases t.tag.convert member.2 with
        | error m => rfl
        | ok tag =>
          simp only [toOption_ok, Option.map_some, Option.bind_some]
          cases t.content tag (.object (members.filter (·.1 != t.key))) <;> rfl

end Tagged
end VisitorGen.Json
