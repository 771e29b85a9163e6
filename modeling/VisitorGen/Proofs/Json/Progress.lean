import VisitorGen.Proofs.Json.Tokens

/-! Reading makes progress. Whatever is read off the front of a text, a value or a piece
of one, leaves less of it than there was (`value_shrinks`), so that the length of a text
bounds every count of steps that a reader takes on it. -/
namespace VisitorGen.Json

variable {α σ : Type}

/-- The scan takes at least one character. -/
def Shrinks (scan : Scan α) : Prop :=
  ∀ {cs : List Char} {a : α} {rest : List Char}, scan cs = .ok (a, rest) → rest.length < cs.length

theorem length_skipSpace_le (cs : List Char) : (skipSpace cs).length ≤ cs.length :=
  (List.dropWhile_sublist isSpace).length_le

theorem length_word_le {letters cs rest : List Char} (h : word letters cs = .ok ((), rest)) :
    rest.length ≤ cs.length := by
  induction letters generalizing cs with
  | nil =>
    cases h
    exact Nat.le_refl _
  | cons letter letters ih =>
    cases cs with
    | nil => cases h
    | cons c cs =>
      rw [word] at h
      split at h
      · exact Nat.le_succ_of_le (ih h)
      · cases h

/-! ### Texts -/

theorem hexEscape_shrinks {cs : List Char} {n : Nat} {rest : List Char}
    (h : hexEscape cs = .ok (n, rest)) : rest.length < cs.length := by
  rw [hexEscape] at h
  split at h
  · cases h
  · simp only at h
    split at h
    · split at h
      · cases h
        simp only [List.length_cons]
        omega
      · cases h
    · cases h

theorem trailSurrogate_shrinks {cs : List Char} {n : Nat} {rest : List Char}
    (h : trailSurrogate cs = .ok (n, rest)) : rest.length < cs.length := by
  unfold trailSurrogate at h
  split at h
  · cases h
  · cases h
  · obtain ⟨⟨m, left⟩, hhex, h⟩ := bind_eq_ok.1 h
    have hless := hexEscape_shrinks hhex
    dsimp only at h
    split at h
    · cases h
      simp only [List.length_cons]
      omega
    · cases h
  · cases h
  · cases h

theorem escape_shrinks : Shrinks escape := by
  intro cs c rest h
  cases cs with
  | nil => cases h
  | cons letter cs =>
    rw [escape] at h
    split at h
    · cases h
      exact Nat.lt_succ_self _
    · split at h
      · obtain ⟨⟨n, left⟩, hhex, h⟩ := bind_eq_ok.1 h
        have hless := hexEscape_shrinks hhex
        dsimp only at h
        split at h
        · cases h
        · split at h
          · obtain ⟨⟨m, left'⟩, htrail, h⟩ := bind_eq_ok.1 h
            have hless' := trailSurrogate_shrinks htrail
            obtain ⟨-, rfl⟩ := Prod.mk.inj (Except.ok.inj h)
            simp only [List.length_cons]
            omega
          · cases h
            simp only [List.length_cons]
            omega
      · cases h

theorem character_shrinks : Shrinks character := by
  intro cs c? rest h
  cases cs with
  | nil => cases h
  | cons c cs =>
    rw [character] at h
    split at h
    · cases h
      exact Nat.lt_succ_self _
    · split at h
      · obtain ⟨⟨d, left⟩, hescape, h⟩ := bind_eq_ok.1 h
        have hless := escape_shrinks hescape
        cases h
        simp only [List.length_cons]
        omega
      · split at h
        · cases h
        · cases h
          exact Nat.lt_succ_self _

theorem characters_shrinks (steps : Nat) : Shrinks (characters steps) := by
  induction steps with
  | zero =>
    intro cs text rest h
    cases h
  | succ steps ih =>
    intro cs text rest h
    obtain ⟨⟨c?, left⟩, hfirst, h⟩ := bind_eq_ok.1 h
    have hless := character_shrinks hfirst
    cases c? with
    | none =>
      cases h
      exact hless
    | some c =>
      obtain ⟨⟨text', left'⟩, hmore, h⟩ := bind_eq_ok.1 h
      have hless' := ih hmore
      cases h
      omega

theorem string_shrinks : Shrinks string := by
  intro cs s rest h
  obtain ⟨⟨text, left⟩, htext, h⟩ := bind_eq_ok.1 h
  cases h
  exact characters_shrinks _ htext

/-! ### Numbers -/

namespace Numeral

theorem digits_shrinks {atEnd : Cause} : Shrinks (digits atEnd) := by
  intro cs ds rest h
  rw [digits] at h
  split at h
  · cases h
  · rename_i hsome
    cases h
    cases cs with
    | nil => exact absurd rfl hsome
    | cons c cs =>
      cases hc : isDigit c with
      | false => simp [hc] at hsome
      | true =>
        rw [List.dropWhile_cons_of_pos hc]
        exact Nat.lt_succ_of_le (List.dropWhile_sublist isDigit).length_le

theorem scanWhole_shrinks {atEnd : Cause} : Shrinks (scanWhole atEnd) := by
  intro cs whole rest h
  unfold scanWhole at h
  split at h
  · split at h
    · cases h
    · cases h
      exact Nat.lt_succ_self _
  · exact digits_shrinks h

theorem length_scanFraction_le {atEnd : Cause} {cs fraction rest : List Char}
    (h : scanFraction atEnd cs = .ok (fraction, rest)) : rest.length ≤ cs.length := by
  unfold scanFraction at h
  split at h
  · exact Nat.le_succ_of_le (Nat.le_of_lt (digits_shrinks h))
  · cases h
    exact Nat.le_refl _

/-- Either there is no exponent, or its letter and its sign are passed over and its digits
are read. What the end of the text would be reported as makes no difference to that. -/
theorem scanExponent_cases (cs : List Char) :
    (∀ atEnd, scanExponent atEnd cs = .ok (none, cs)) ∨
    ∃ negative left, left.length < cs.length ∧ ∀ atEnd, scanExponent atEnd cs =
      (digits atEnd left).map fun read => (some ⟨negative, read.1⟩, read.2) := by
  cases cs with
  | nil => exact .inl fun _ => rfl
  | cons c cs =>
    by_cases hletter : c = 'e' ∨ c = 'E'
    · refine .inr ?_
      simp only [scanExponent, if_pos hletter]
      split
      · rename_i left
        refine ⟨false, left, by simp only [List.length_cons]; omega, fun atEnd => ?_⟩
        cases digits atEnd left <;> rfl
      · rename_i left
        refine ⟨true, left, by simp only [List.length_cons]; omega, fun atEnd => ?_⟩
        cases digits atEnd left <;> rfl
      · refine ⟨false, cs, Nat.lt_succ_self _, fun atEnd => ?_⟩
        cases digits atEnd cs <;> rfl
    · exact .inl fun atEnd => by simp only [scanExponent, if_neg hletter]

theorem length_scanExponent_le {atEnd : Cause} {cs : List Char} {exponent? : Option Exponent}
    {rest : List Char} (h : scanExponent atEnd cs = .ok (exponent?, rest)) :
    rest.length ≤ cs.length := by
  rcases scanExponent_cases cs with hnone | ⟨negative, left, hless, hdigits⟩
  · rw [hnone] at h
    cases h
    exact Nat.le_refl _
  · rw [hdigits] at h
    obtain ⟨⟨ds, rest'⟩, hread, hresult⟩ := map_eq_ok.1 h
    cases hresult
    exact Nat.le_of_lt (Nat.lt_trans (digits_shrinks hread) hless)

theorem scan_shrinks {atEnd : Cause} : Shrinks (scan atEnd) := by
  have hunsigned : ∀ negative, Shrinks (scanUnsigned atEnd negative) := by
    intro negative cs numeral rest h
    obtain ⟨⟨whole, left⟩, hwhole, h⟩ := bind_eq_ok.1 h
    obtain ⟨⟨fraction, left'⟩, hfraction, h⟩ := bind_eq_ok.1 h
    obtain ⟨⟨exponent?, left''⟩, hexponent, h⟩ := bind_eq_ok.1 h
    have hless := scanWhole_shrinks hwhole
    have hle := length_scanFraction_le hfraction
    have hle' := length_scanExponent_le hexponent
    cases h
    omega
  intro cs numeral rest h
  unfold scan at h
  split at h
  · exact Nat.lt_succ_of_lt (hunsigned _ h)
  · exact hunsigned _ h

end Numeral

theorem number_shrinks : Shrinks number := by
  intro cs n rest h
  obtain ⟨⟨numeral, left⟩, hscan, h⟩ := bind_eq_ok.1 h
  have hless := Numeral.scan_shrinks hscan
  dsimp only at h
  split at h
  · cases h
    exact hless
  · cases h

/-! ### Values -/

theorem scalar_shrinks : Shrinks scalar := by
  intro cs v rest h
  cases cs with
  | nil => cases h
  | cons c cs =>
    cases scalar_eq_ok_iff.1 h with
    | null hword => exact Nat.lt_succ_of_le (length_word_le hword)
    | true hword => exact Nat.lt_succ_of_le (length_word_le hword)
    | false hword => exact Nat.lt_succ_of_le (length_word_le hword)
    | string hstring => exact Nat.lt_succ_of_lt (string_shrinks hstring)
    | number _ hnumber => exact number_shrinks hnumber

theorem length_nextElement_le {manner : Manner} {first : Bool} {cs rest : List Char}
    (h : nextElement manner first cs = .ok (.more rest)) : rest.length ≤ cs.length := by
  obtain ⟨c, left, hcs, -, hrest⟩ := nextElement_eq_more_iff.1 h
  have hspace := length_skipSpace_le cs
  rw [hcs] at hspace
  cases first with
  | true =>
    rw [if_pos rfl] at hrest
    exact hrest ▸ hspace
  | false =>
    obtain ⟨-, rfl, -⟩ := hrest
    have hspace' := length_skipSpace_le left
    rw [List.length_cons] at hspace
    omega

theorem length_elements_le {manner : Manner} {item : Scan α} (hitem : Shrinks item) {steps : Nat}
    {first : Bool} {cs : List Char} {as : List α} {rest : List Char}
    (h : elements manner item steps first cs = .ok (as, rest)) : rest.length ≤ cs.length := by
  rw [elements_eq_ok_iff] at h
  induction h with
  | @stop _ _ cs hnext =>
    obtain ⟨left, hcs, rfl⟩ := nextElement_eq_stop_iff.1 hnext
    exact hcs ▸ length_skipSpace_le cs
  | more hnext hfirst _ ih =>
    have hnext' := length_nextElement_le hnext
    have hfirst' := hitem hfirst
    omega

/-- Any number of steps beyond the length of the text is enough. -/
theorem elements_steps {manner : Manner} {item : Scan α} (hitem : Shrinks item)
    {steps steps' : Nat} {first : Bool} {cs : List Char} {as : List α} {rest : List Char}
    (h : elements manner item steps first cs = .ok (as, rest)) (hsteps : cs.length < steps') :
    elements manner item steps' first cs = .ok (as, rest) := by
  rw [elements_eq_ok_iff] at h ⊢
  induction h generalizing steps' with
  | stop hnext =>
    obtain ⟨steps', rfl⟩ := Nat.exists_eq_add_of_lt hsteps
    exact .stop hnext
  | more hnext hfirst hmore ih =>
    have hnext' := length_nextElement_le hnext
    have hfirst' := hitem hfirst
    cases steps' with
    | zero => omega
    | succ steps' => exact .more hnext hfirst (ih (by omega))

theorem length_nextKey_lt {manner : Manner} {first : Bool} {cs rest : List Char}
    (h : nextKey manner first cs = .ok (.more rest)) : rest.length < cs.length := by
  have hspace := length_skipSpace_le cs
  have hrest := nextKey_eq_more_iff.1 h
  cases first with
  | true =>
    rw [if_pos rfl] at hrest
    rw [hrest] at hspace
    exact hspace
  | false =>
    obtain ⟨left, hcs, hleft⟩ := hrest
    have hspace' := length_skipSpace_le left
    rw [hcs, List.length_cons] at hspace
    rw [hleft, List.length_cons] at hspace'
    omega

theorem colon_shrinks : Shrinks colon := by
  intro cs _ rest h
  have hspace := length_skipSpace_le cs
  rw [colon_eq_ok_iff.1 h] at hspace
  exact hspace

theorem keepMember_shrinks {item : Scan Value} (hitem : Shrinks item)
    (before : List (String × Value)) : Shrinks (keepMember item before) := by
  intro cs members rest h
  obtain ⟨key, left, left', v, hkey, hcolon, hvalue, -⟩ := keepMember_eq_ok_iff.1 h
  have hkey' := string_shrinks hkey
  have hcolon' := colon_shrinks hcolon
  have hvalue' := hitem hvalue
  omega

theorem length_foldMembers_le {manner : Manner} {step : σ → Scan σ}
    (hstep : ∀ s, Shrinks (step s)) {steps : Nat} {first : Bool} {s : σ} {cs : List Char} {s' : σ}
    {rest : List Char} (h : foldMembers manner step steps first s cs = .ok (s', rest)) :
    rest.length ≤ cs.length := by
  rw [foldMembers_eq_ok_iff] at h
  induction h with
  | @stop _ _ cs hnext =>
    obtain ⟨left, hcs, rfl⟩ := nextKey_eq_stop_iff.1 hnext
    exact hcs ▸ length_skipSpace_le cs
  | more hnext hfirst _ ih =>
    have hnext' := length_nextKey_lt hnext
    have hfirst' := hstep _ hfirst
    omega

/-- Any number of steps beyond the length of the text is enough. -/
theorem foldMembers_steps {manner : Manner} {step : σ → Scan σ} (hstep : ∀ s, Shrinks (step s))
    {steps steps' : Nat} {first : Bool} {s s' : σ} {cs rest : List Char}
    (h : foldMembers manner step steps first s cs = .ok (s', rest)) (hsteps : cs.length < steps') :
    foldMembers manner step steps' first s cs = .ok (s', rest) := by
  rw [foldMembers_eq_ok_iff] at h ⊢
  induction h generalizing steps' with
  | stop hnext =>
    obtain ⟨steps', rfl⟩ := Nat.exists_eq_add_of_lt hsteps
    exact .stop hnext
  | more hnext hfirst hmore ih =>
    have hnext' := length_nextKey_lt hnext
    have hfirst' := hstep _ hfirst
    cases steps' with
    | zero => omega
    | succ steps' => exact .more hnext hfirst (ih (by omega))

/-- Every value takes at least one character. -/
theorem value_shrinks (n : Nat) : Shrinks (value n) := by
  have hscalar : ∀ {cs : List Char} {c : Char} {left : List Char} {v : Value} {rest : List Char},
      skipSpace cs = c :: left → scalar (c :: left) = .ok (v, rest) → rest.length < cs.length := by
    intro cs c left v rest hcs hread
    have hspace := length_skipSpace_le cs
    have hless := scalar_shrinks hread
    rw [hcs] at hspace
    omega
  induction n with
  | zero =>
    intro cs v rest h
    cases value_eq_ok_iff.1 h with
    | scalar hcs _ _ hread => exact hscalar hcs hread
  | succ n ih =>
    intro cs v rest h
    have hspace := length_skipSpace_le cs
    cases value_eq_ok_iff.1 h with
    | scalar hcs _ _ hread => exact hscalar hcs hread
    | @array _ left last _ hcs hitems hclose =>
      have hitems' := length_elements_le ih hitems
      have hclose' := length_skipSpace_le last
      rw [hcs, List.length_cons] at hspace
      rw [hclose, List.length_cons] at hclose'
      omega
    | @object _ left last _ hcs hmembers hclose =>
      have hmembers' := length_foldMembers_le (keepMember_shrinks ih) hmembers
      have hclose' := length_skipSpace_le last
      rw [hcs, List.length_cons] at hspace
      rw [hclose, List.length_cons] at hclose'
      omega

end VisitorGen.Json
