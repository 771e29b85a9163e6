import VisitorGen.Proofs.Json.Progress

/-! What can be read can be skipped. Skipping a value asks for less than reading it, in its
texts, its numbers and its depth, and it ends at the same place (`skip_of_value`). -/
namespace VisitorGen.Json

variable {α β : Type}

/-! ### Texts -/

theorem skipCharacter_of_hexEscape {cs : List Char} {n : Nat} {rest : List Char}
    (h : hexEscape cs = .ok (n, rest)) : skipCharacter ('\\' :: 'u' :: cs) = .ok (false, rest) := by
  have hletter : (shortEscape? 'u').isSome = false := rfl
  have hescape : skipEscape ('u' :: cs) = .ok ((), rest) := by
    rw [skipEscape, hletter, if_neg Bool.false_ne_true, if_pos rfl, h]
    rfl
  rw [skipCharacter, if_neg (by decide), if_pos rfl, hescape]
  rfl

/-- The second half of a surrogate pair is an escape of its own. -/
theorem skipCharacter_of_trailSurrogate {cs : List Char} {n : Nat} {rest : List Char}
    (h : trailSurrogate cs = .ok (n, rest)) : skipCharacter cs = .ok (false, rest) := by
  unfold trailSurrogate at h
  split at h
  · cases h
  · cases h
  · obtain ⟨⟨m, left⟩, hhex, h⟩ := bind_eq_ok.1 h
    dsimp only at h
    split at h
    · cases h
      exact skipCharacter_of_hexEscape hhex
    · cases h
  · cases h
  · cases h

theorem skipCharacter_of_end {cs rest : List Char} (h : character cs = .ok (none, rest)) :
    skipCharacter cs = .ok (true, rest) := by
  cases cs with
  | nil => cases h
  | cons c cs =>
    rw [character] at h
    split at h
    · cases h
      rw [skipCharacter, if_pos ‹_›]
    split at h
    · obtain ⟨_, _, h⟩ := bind_eq_ok.1 h
      cases h
    split at h <;> cases h

/-- What stands before `rest` is skipped in one step, or in two that both take something. -/
def SkippedTo (rest cs : List Char) : Prop :=
  skipCharacter cs = .ok (false, rest) ∨
    ∃ left, skipCharacter cs = .ok (false, left) ∧ skipCharacter left = .ok (false, rest) ∧
      left.length < cs.length ∧ rest.length < left.length

/-- Only a surrogate pair takes two steps. -/
theorem skippedTo_of_escape {cs : List Char} {c : Char} {rest : List Char}
    (h : escape cs = .ok (c, rest)) : SkippedTo rest ('\\' :: cs) := by
  cases cs with
  | nil => cases h
  | cons letter cs =>
    rw [escape] at h
    split at h
    · rename_i hshort
      cases h
      apply Or.inl
      rw [skipCharacter, if_neg (by decide), if_pos rfl, skipEscape, hshort]
      rfl
    split at h
    · rename_i hletter
      subst letter
      obtain ⟨⟨n, left⟩, hhex, h⟩ := bind_eq_ok.1 h
      dsimp only at h
      split at h
      · cases h
      split at h
      · obtain ⟨⟨m, left'⟩, htrail, h⟩ := bind_eq_ok.1 h
        obtain ⟨-, rfl⟩ := Prod.mk.inj (Except.ok.inj h)
        have hless := hexEscape_shrinks hhex
        refine .inr ⟨left, skipCharacter_of_hexEscape hhex,
          skipCharacter_of_trailSurrogate htrail, ?_, trailSurrogate_shrinks htrail⟩
        simp only [List.length_cons]
        omega
      · cases h
        exact .inl (skipCharacter_of_hexEscape hhex)
    · cases h

theorem skippedTo_of_character {cs : List Char} {c : Char} {rest : List Char}
    (h : character cs = .ok (some c, rest)) : SkippedTo rest cs := by
  cases cs with
  | nil => cases h
  | cons d cs =>
    rw [character] at h
    by_cases hquote : d = '"'
    · rw [if_pos hquote] at h
      cases h
    rw [if_neg hquote] at h
    by_cases hslash : d = '\\'
    · rw [if_pos hslash] at h
      obtain ⟨⟨c', rest'⟩, hescape, h⟩ := bind_eq_ok.1 h
      cases h
      exact hslash ▸ skippedTo_of_escape hescape
    rw [if_neg hslash] at h
    split at h
    · cases h
    · cases h
      apply Or.inl
      rw [skipCharacter, if_neg hquote, if_neg hslash, if_neg ‹_›]

theorem skipCharacters_of_characters {steps : Nat} {cs text rest : List Char}
    (h : characters steps cs = .ok (text, rest)) {steps' : Nat} (hsteps : cs.length < steps') :
    skipCharacters steps' cs = .ok ((), rest) := by
  have hstep : ∀ {cs left : List Char} {steps : Nat}, skipCharacter cs = .ok (false, left) →
      skipCharacters (steps + 1) cs = skipCharacters steps left := by
    intro cs left steps hskip
    rw [skipCharacters, hskip]
    rfl
  induction steps generalizing cs text steps' with
  | zero => cases h
  | succ steps ih =>
    obtain ⟨steps', rfl⟩ := Nat.exists_eq_succ_of_ne_zero (Nat.ne_zero_of_lt hsteps)
    obtain ⟨⟨c?, left⟩, hfirst, h⟩ := bind_eq_ok.1 h
    have hless := character_shrinks hfirst
    cases c? with
    | none =>
      cases h
      rw [skipCharacters, skipCharacter_of_end hfirst]
      rfl
    | some c =>
      obtain ⟨⟨text', left'⟩, hmore, h⟩ := bind_eq_ok.1 h
      cases h
      rcases skippedTo_of_character hfirst with hskip | ⟨half, hskip, hskip', hhalf, hleft⟩
      · rw [hstep hskip]
        exact ih hmore (by omega)
      · obtain ⟨steps', rfl⟩ := Nat.exists_eq_succ_of_ne_zero (Nat.ne_zero_of_lt
          (Nat.lt_of_lt_of_le (Nat.zero_lt_of_lt hhalf) (Nat.le_of_lt_succ hsteps)))
        rw [hstep hskip, hstep hskip']
        exact ih hmore (by omega)

theorem skipString_of_string {cs : List Char} {s : String} {rest : List Char}
    (h : string cs = .ok (s, rest)) : skipString cs = .ok ((), rest) := by
  obtain ⟨⟨text, left⟩, htext, h⟩ := bind_eq_ok.1 h
  cases h
  exact skipCharacters_of_characters htext (Nat.lt_succ_self _)

/-! ### Numbers

A numeral is read alike whatever there is to report when the text ends within it. -/

namespace Numeral
variable {atEnd atEnd' : Cause} {cs rest : List Char}

theorem digits_of_digits {ds : List Char} (h : digits atEnd cs = .ok (ds, rest)) :
    digits atEnd' cs = .ok (ds, rest) := by
  unfold digits at h ⊢
  split at h
  · cases h
  · rwa [if_neg ‹_›]

theorem scanWhole_of_scanWhole {whole : List Char} (h : scanWhole atEnd cs = .ok (whole, rest)) :
    scanWhole atEnd' cs = .ok (whole, rest) := by
  unfold scanWhole at h ⊢
  split
  · exact h
  · rename_i hother
    split at h
    · exact absurd rfl (hother _ _)
    · exact digits_of_digits h

theorem scanFraction_of_scanFraction {fraction : List Char}
    (h : scanFraction atEnd cs = .ok (fraction, rest)) :
    scanFraction atEnd' cs = .ok (fraction, rest) := by
  unfold scanFraction at h ⊢
  split
  · exact digits_of_digits h
  · rename_i hother
    split at h
    · exact absurd rfl (hother _)
    · exact h

theorem scanExponent_of_scanExponent {exponent? : Option Exponent}
    (h : scanExponent atEnd cs = .ok (exponent?, rest)) :
    scanExponent atEnd' cs = .ok (exponent?, rest) := by
  rcases scanExponent_cases cs with hnone | ⟨negative, left, -, hdigits⟩
  · rw [hnone] at h ⊢
    exact h
  · rw [hdigits] at h ⊢
    obtain ⟨⟨ds, rest'⟩, hread, hresult⟩ := map_eq_ok.1 h
    exact map_eq_ok.2 ⟨_, digits_of_digits hread, hresult⟩

theorem scan_of_scan {numeral : Numeral} (h : scan atEnd cs = .ok (numeral, rest)) :
    scan atEnd' cs = .ok (numeral, rest) := by
  have hunsigned : ∀ {negative : Bool} {cs : List Char},
      scanUnsigned atEnd negative cs = .ok (numeral, rest) →
      scanUnsigned atEnd' negative cs = .ok (numeral, rest) := by
    intro negative cs h
    obtain ⟨⟨whole, left⟩, hwhole, h⟩ := bind_eq_ok.1 h
    obtain ⟨⟨fraction, left'⟩, hfraction, h⟩ := bind_eq_ok.1 h
    obtain ⟨⟨exponent?, left''⟩, hexponent, h⟩ := bind_eq_ok.1 h
    exact bind_eq_ok.2 ⟨_, scanWhole_of_scanWhole hwhole, bind_eq_ok.2 ⟨_,
      scanFraction_of_scanFraction hfraction, bind_eq_ok.2 ⟨_,
        scanExponent_of_scanExponent hexponent, h⟩⟩⟩
  unfold scan at h ⊢
  split
  · exact hunsigned h
  · rename_i hother
    split at h
    · exact absurd rfl (hother _)
    · exact hunsigned h

end Numeral

theorem skipNumber_of_number {cs : List Char} {n : Number} {rest : List Char}
    (h : number cs = .ok (n, rest)) : skipNumber cs = .ok ((), rest) := by
  obtain ⟨⟨numeral, left⟩, hscan, h⟩ := bind_eq_ok.1 h
  dsimp only at h
  split at h
  · cases h
    exact bind_eq_ok.2 ⟨_, Numeral.scan_of_scan hscan, rfl⟩
  · cases h

/-! ### Values -/

theorem skipScalar_of_scalar {cs : List Char} {v : Value} {rest : List Char}
    (h : scalar cs = .ok (v, rest)) : skipScalar cs = .ok ((), rest) := by
  cases cs with
  | nil => cases h
  | cons c cs =>
    cases scalar_eq_ok_iff.1 h with
    | null hword => exact hword
    | true hword => exact hword
    | false hword => exact hword
    | string hstring => exact skipString_of_string hstring
    | number hfirst hnumber =>
      have hother : ∀ d, d ≠ '-' → isDigit d = false → c ≠ d := fun d => numeral_first_ne hfirst
      rw [skipScalar, if_neg (hother 'n' (by decide) rfl), if_neg (hother 't' (by decide) rfl),
        if_neg (hother 'f' (by decide) rfl), if_neg (hother '"' (by decide) rfl), if_pos hfirst]
      exact skipNumber_of_number hnumber

/-- Elements that are read can be skipped, if those of texts no longer than this one can. -/
theorem exists_elements_skipped {item : Scan α} {item' : Scan β} (hitem : Shrinks item)
    {bound : Nat} (hskip : ∀ {cs a rest}, cs.length ≤ bound → item cs = .ok (a, rest) →
      ∃ b, item' cs = .ok (b, rest))
    {steps : Nat} {first : Bool} {cs : List Char} (hbound : cs.length ≤ bound) {as : List α}
    {rest : List Char} (h : elements .kept item steps first cs = .ok (as, rest)) :
    ∃ bs, elements .skipped item' steps first cs = .ok (bs, rest) := by
  simp only [elements_eq_ok_iff] at h ⊢
  induction h with
  | stop hnext => exact ⟨[], .stop (nextElement_eq_stop_iff.2 (nextElement_eq_stop_iff.1 hnext))⟩
  | @more _ first cs left left' a as hnext hfirst _ ih =>
    have hless := length_nextElement_le hnext
    have hless' := hitem hfirst
    obtain ⟨b, hb⟩ := hskip (by omega) hfirst
    obtain ⟨bs, hbs⟩ := ih (by omega)
    have hnext' : nextElement .skipped first cs = .ok (.more left) := by
      obtain ⟨c, left'', hcs, hc, hrest⟩ := nextElement_eq_more_iff.1 hnext
      refine nextElement_eq_more_iff.2 ⟨c, left'', hcs, hc, ?_⟩
      cases first with
      | true => exact hrest
      | false => exact ⟨hrest.1, hrest.2.1, fun hmanner => (nomatch hmanner)⟩
    exact ⟨b :: bs, .more hnext' hb hbs⟩

theorem foldMembers_skipped {item : Scan Value} {skip' : Scan Unit} (hitem : Shrinks item)
    {bound : Nat} (hskip : ∀ {cs v rest}, cs.length ≤ bound → item cs = .ok (v, rest) →
      skip' cs = .ok ((), rest))
    {steps : Nat} {first : Bool} {before : List (String × Value)} {cs : List Char}
    (hbound : cs.length ≤ bound) {members : List (String × Value)} {rest : List Char}
    (h : foldMembers .kept (keepMember item) steps first before cs = .ok (members, rest)) :
    foldMembers .skipped (skipMember skip') steps first () cs = .ok ((), rest) := by
  rw [foldMembers_eq_ok_iff] at h ⊢
  induction h with
  | stop hnext => exact .stop (nextKey_eq_stop_iff.2 (nextKey_eq_stop_iff.1 hnext))
  | @more _ _ cs left left' before _ hnext hmember _ ih =>
    have hless := length_nextKey_lt hnext
    have hless' := keepMember_shrinks hitem before hmember
    obtain ⟨key, left₁, left₂, v, hkey, hcolon, hvalue, -⟩ := keepMember_eq_ok_iff.1 hmember
    have hless₁ := string_shrinks hkey
    have hless₂ := colon_shrinks hcolon
    have hmember' : skipMember skip' () left = .ok ((), left') := bind_eq_ok.2 ⟨_,
      skipString_of_string hkey, bind_eq_ok.2 ⟨_, hcolon, hskip (by omega) hvalue⟩⟩
    exact .more (nextKey_eq_more_iff.2 (nextKey_eq_more_iff.1 hnext)) hmember' (ih (by omega))

/-- A text no longer than the depth is not nested more deeply. -/
theorem skipNested_of_value {depth n : Nat} {cs : List Char} (hdepth : cs.length ≤ depth)
    {v : Value} {rest : List Char} (h : value n cs = .ok (v, rest)) :
    skipNested depth cs = .ok ((), rest) := by
  induction depth generalizing n cs v rest with
  | zero =>
    have hless := value_shrinks n h
    omega
  | succ depth ih =>
    have hspace := length_skipSpace_le cs
    cases value_eq_ok_iff.1 h with
    | scalar hcs hlist hobject hscalar =>
      rw [skipNested, hcs]
      split
      · exact absurd (List.cons.inj ‹_›).1 hlist
      · exact absurd (List.cons.inj ‹_›).1 hobject
      · exact skipScalar_of_scalar hscalar
    | @array n left last items hcs hitems hclose =>
      rw [hcs, List.length_cons] at hspace
      obtain ⟨bs, hbs⟩ := exists_elements_skipped (value_shrinks n)
        (fun hbound hvalue => ⟨(), ih hbound hvalue⟩) (by omega) hitems
      rw [skipNested, hcs]
      exact bind_eq_ok.2 ⟨_, enclose_eq_ok_iff.2 ⟨last, hbs, closeList_eq_ok_iff.2 hclose⟩, rfl⟩
    | @object n left last members hcs hmembers hclose =>
      rw [hcs, List.length_cons] at hspace
      have hskipped := foldMembers_skipped (value_shrinks n) (fun hbound hvalue => ih hbound hvalue)
        (by omega) hmembers
      rw [skipNested, hcs]
      exact enclose_eq_ok_iff.2 ⟨last, hskipped, closeObject_eq_ok_iff.2 hclose⟩

theorem skip_of_value {n : Nat} {cs : List Char} {v : Value} {rest : List Char}
    (h : value n cs = .ok (v, rest)) : skip cs = .ok ((), rest) :=
  skipNested_of_value (Nat.le_refl _) h

end VisitorGen.Json
