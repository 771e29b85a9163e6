import VisitorGen.Proofs.Json.Faithful
import VisitorGen.Proofs.Json.Grammar
import VisitorGen.Proofs.Json.Layout

/-! Well-formed texts are read. Wherever a token may end, the reader takes a text that is
written for a value as that value and leaves what stands after it (`Written.reads`), when it
may open as many brackets. Numbers are why the end matters: the text of a number goes on as
long as digits do. -/
namespace VisitorGen.Json

/-! ### Reading white space -/

variable {n : Nat} {text rest gap : List Char}

/-- A token may end here: the text ends, or it goes on with what no token goes on with. -/
def Ends (rest : List Char) : Prop :=
  ∀ c, rest.head? = some c → isSpace c = true ∨ c = ',' ∨ c = ']' ∨ c = '\x7d'

theorem ends_nil : Ends [] := nofun

theorem ends_cons {c : Char} (h : c = ',' ∨ c = ']' ∨ c = '\x7d') (rest : List Char) :
    Ends (c :: rest) := by
  intro d hd
  cases hd
  exact Or.inr h

theorem ends_comma (rest : List Char) : Ends (',' :: rest) := ends_cons (Or.inl rfl) rest

theorem ends_list (rest : List Char) : Ends (']' :: rest) := ends_cons (Or.inr (Or.inl rfl)) rest

theorem ends_object (rest : List Char) : Ends ('\x7d' :: rest) :=
  ends_cons (Or.inr (Or.inr rfl)) rest

theorem ends_gap (hgap : Gap gap) (h : Ends rest) : Ends (gap ++ rest) := by
  cases gap with
  | nil => exact h
  | cons c gap =>
    intro d hd
    cases hd
    exact Or.inl (hgap c List.mem_cons_self)

/-- No digit, point or exponent begins what stands after a token. -/
theorem Ends.not_numeral {c : Char} (h : Ends (c :: rest)) :
    isDigit c = false ∧ c ≠ '.' ∧ ¬ (c = 'e' ∨ c = 'E') := by
  have hspaces : ∀ d, isSpace d = true → d = ' ' ∨ d = '\n' ∨ d = '\t' ∨ d = '\r' := fun d hd => by
    simpa [isSpace, or_assoc] using hd
  rcases h c rfl with hspace | rfl | rfl | rfl
  · rcases hspaces c hspace with rfl | rfl | rfl | rfl <;> decide
  · decide
  · decide
  · decide

/-! ### Reading strings -/

theorem length_le_byteCount (cs : List Char) : cs.length ≤ byteCount cs := by
  induction cs with
  | nil => exact Nat.le_refl 0
  | cons c cs ih =>
    have hc : 1 ≤ c.utf8Size := c.utf8Size_pos
    simp only [byteCount, List.foldr_cons, List.length_cons] at ih ⊢
    omega

theorem hexEscape_of_hexNumber? {digits : List Char} {number : Nat}
    (h : hexNumber? digits = some number) (rest : List Char) :
    hexEscape (digits ++ rest) = .ok (number, rest) := by
  unfold hexNumber? at h
  split at h
  · rename_i a b c d
    have hlong : ¬ byteCount ([a, b, c, d] ++ rest) < 4 := by
      have hlength := length_le_byteCount ([a, b, c, d] ++ rest)
      simp only [List.length_append, List.length_cons] at hlength
      omega
    obtain ⟨a', ha, h⟩ := Option.bind_eq_some_iff.1 h
    obtain ⟨b', hb, h⟩ := Option.bind_eq_some_iff.1 h
    obtain ⟨c', hc, h⟩ := Option.bind_eq_some_iff.1 h
    obtain ⟨d', hd, h⟩ := Option.bind_eq_some_iff.1 h
    cases h
    rw [hexEscape, if_neg hlong]
    simp only [List.cons_append, List.nil_append, ha, hb, hc, hd]
  · cases h

/-- What the number of an escape stands for, by itself or with the number after it. -/
theorem escape_hexNumber {digits : List Char} {number : Nat}
    (h : hexNumber? digits = some number) (rest : List Char) :
    escape ('u' :: (digits ++ rest)) =
      if isTrailSurrogate number then .error (.here .loneSurrogate rest)
      else if isLeadSurrogate number then do
        let (trail, rest) ← trailSurrogate rest
        return (surrogatePair number trail, rest)
      else .ok (Char.ofNat number, rest) := by
  have hshort : shortEscape? 'u' = none := rfl
  rw [escape, hshort]
  simp only [hexEscape_of_hexNumber? h, if_true]
  rfl

theorem trailSurrogate_hexNumber {digits : List Char} {number : Nat}
    (h : hexNumber? digits = some number) (htrail : isTrailSurrogate number = true)
    (rest : List Char) : trailSurrogate ('\\' :: 'u' :: (digits ++ rest)) = .ok (number, rest) := by
  rw [trailSurrogate]
  refine bind_eq_ok.2 ⟨_, hexEscape_of_hexNumber? h rest, ?_⟩
  simp only [htrail, if_true]
  rfl

theorem character_escape {cs rest : List Char} {c : Char} (h : escape cs = .ok (c, rest)) :
    character ('\\' :: cs) = .ok (some c, rest) := by
  rw [character, if_neg (by decide), if_pos rfl]
  exact bind_eq_ok.2 ⟨_, h, rfl⟩

theorem CharWritten.reads {spelling : List Char} {c : Char} (h : CharWritten spelling c)
    (rest : List Char) : character (spelling ++ rest) = .ok (some c, rest) := by
  cases h with
  | plain hcontrol hquote hslash =>
    rw [List.singleton_append, character, if_neg hquote, if_neg hslash, if_neg (by omega)]
  | @short letter _ hescape =>
    have hread : escape (letter :: rest) = .ok (c, rest) := by rw [escape, hescape]
    exact character_escape hread
  | unicode hdigits hlead htrail =>
    refine character_escape ((escape_hexNumber hdigits rest).trans ?_)
    rw [htrail, hlead]
    rfl
  | @pair digits digits' lead trail hdigits hdigits' hlead htrail =>
    have hnot : isTrailSurrogate lead = false := by
      simp only [isLeadSurrogate, isTrailSurrogate, Bool.and_eq_true, decide_eq_true_eq,
        Bool.and_eq_false_iff, decide_eq_false_iff_not] at hlead ⊢
      omega
    have htext : '\\' :: 'u' :: digits ++ '\\' :: 'u' :: digits' ++ rest =
        '\\' :: 'u' :: (digits ++ '\\' :: 'u' :: (digits' ++ rest)) := by simp
    rw [htext]
    refine character_escape ((escape_hexNumber hdigits _).trans ?_)
    rw [hnot, hlead, trailSurrogate_hexNumber hdigits' htrail]
    rfl

theorem CharWritten.length_pos {spelling : List Char} {c : Char} (h : CharWritten spelling c) :
    0 < spelling.length := by
  cases h <;> exact Nat.succ_pos _

theorem CharsWritten.reads {body cs : List Char} (h : CharsWritten body cs) {steps : Nat}
    (hsteps : body.length < steps) (rest : List Char) :
    characters steps (body ++ '"' :: rest) = .ok (cs, rest) := by
  induction h generalizing steps with
  | nil =>
    obtain ⟨steps, rfl⟩ := Nat.exists_eq_succ_of_ne_zero (Nat.ne_zero_of_lt hsteps)
    rfl
  | @cons spelling more cs c hc hmore ih =>
    obtain ⟨steps, rfl⟩ := Nat.exists_eq_succ_of_ne_zero (Nat.ne_zero_of_lt hsteps)
    have hpos := hc.length_pos
    rw [List.length_append] at hsteps
    rw [List.append_assoc]
    exact bind_eq_ok.2 ⟨_, hc.reads _, bind_eq_ok.2 ⟨_, ih (by omega), rfl⟩⟩

theorem StringWritten.reads {s : String} (h : StringWritten text s) (rest : List Char) :
    ∃ left, text ++ rest = '"' :: left ∧ string left = .ok (s, rest) := by
  obtain ⟨hbody⟩ := h
  rename_i body cs
  refine ⟨body ++ '"' :: rest, by simp, bind_eq_ok.2 ⟨(cs, rest), hbody.reads ?_ rest, rfl⟩⟩
  rw [List.length_append]
  omega

/-! ### Reading numbers -/

/-- The digits of a number may end here. -/
def NoDigit (rest : List Char) : Prop := ∀ c, rest.head? = some c → isDigit c = false

theorem noDigit_cons {c : Char} (h : isDigit c = false) (cs : List Char) : NoDigit (c :: cs) := by
  intro d hd
  cases hd
  exact h

theorem Ends.noDigit (h : Ends rest) : NoDigit rest := by
  cases rest with
  | nil => exact nofun
  | cons c rest => exact noDigit_cons h.not_numeral.1 rest

theorem WholeWritten.written (h : WholeWritten text) : DigitsWritten text := ⟨h.digits, h.nonempty⟩

namespace Numeral

variable (atEnd : Cause)

theorem digits_append {ds : List Char} (h : DigitsWritten ds) (hrest : NoDigit rest) :
    digits atEnd (ds ++ rest) = .ok (ds, rest) := by
  have htake : (ds ++ rest).takeWhile isDigit = ds := by
    rw [List.takeWhile_append_of_pos h.digits]
    cases rest with
    | nil => simp
    | cons c rest => simp [hrest c rfl]
  have hdrop : (ds ++ rest).dropWhile isDigit = rest := by
    rw [List.dropWhile_append_of_pos h.digits]
    cases rest with
    | nil => rfl
    | cons c rest => simp [hrest c rfl]
  rw [digits, htake, hdrop, if_neg (by simpa using h.nonempty)]

theorem scanWhole_append {ds : List Char} (h : WholeWritten ds) (hrest : NoDigit rest) :
    scanWhole atEnd (ds ++ rest) = .ok (ds, rest) := by
  by_cases hzero : ds.head? = some '0'
  · obtain rfl := h.unpadded hzero
    cases rest with
    | nil => rfl
    | cons c rest =>
      rw [List.singleton_append, scanWhole, hrest c rfl]
      rfl
  · have hform : scanWhole atEnd (ds ++ rest) = digits atEnd (ds ++ rest) := by
      obtain ⟨d, ds, rfl⟩ := List.exists_cons_of_ne_nil h.nonempty
      have hd : d ≠ '0' := fun heq => hzero (heq ▸ rfl)
      unfold scanWhole
      split
      · rename_i heq
        exact absurd (List.cons.inj heq).1 hd
      · rfl
    rw [hform, digits_append atEnd h.written hrest]

theorem scanFraction_append {fraction : List Char} (h : FractionWritten text fraction)
    (hrest : NoDigit rest) (hpoint : rest.head? ≠ some '.') :
    scanFraction atEnd (text ++ rest) = .ok (fraction, rest) := by
  cases h with
  | point hdigits => exact digits_append atEnd hdigits hrest
  | none =>
    rw [List.nil_append]
    unfold scanFraction
    split
    · exact absurd rfl hpoint
    · rfl

theorem scanExponent_append {exponent? : Option Exponent} (h : ExponentWritten text exponent?)
    (hrest : Ends rest) : scanExponent atEnd (text ++ rest) = .ok (exponent?, rest) := by
  cases h with
  | none =>
    cases rest with
    | nil => rfl
    | cons c rest =>
      simp only [List.nil_append, scanExponent, if_neg hrest.not_numeral.2.2]
  | @letter c sign digits negative hletter hsign hdigits =>
    have hread := digits_append atEnd hdigits hrest.noDigit
    rw [List.cons_append, List.append_assoc]
    cases hsign with
    | plus =>
      simp only [scanExponent, if_pos hletter]
      exact bind_eq_ok.2 ⟨_, hread, rfl⟩
    | minus =>
      simp only [scanExponent, if_pos hletter]
      exact bind_eq_ok.2 ⟨_, hread, rfl⟩
    | none =>
      obtain ⟨d, ds, rfl⟩ := List.exists_cons_of_ne_nil hdigits.nonempty
      have hdigit : isDigit d = true := hdigits.digits d List.mem_cons_self
      have hother : ∀ sign, isDigit sign = false → d ≠ sign := fun sign hsign heq => by
        rw [heq, hsign] at hdigit
        cases hdigit
      simp only [scanExponent, if_pos hletter]
      split
      · exact absurd (List.cons.inj ‹_›).1 (hother '+' rfl)
      · exact absurd (List.cons.inj ‹_›).1 (hother '-' rfl)
      · exact bind_eq_ok.2 ⟨_, hread, rfl⟩

/-- What a fraction begins with, or what stands after it if there is none, ends the digits. -/
theorem fraction_first {fraction : List Char} (h : FractionWritten text fraction)
    (hrest : NoDigit rest) : NoDigit (text ++ rest) := by
  cases h with
  | none => exact hrest
  | point => exact noDigit_cons rfl _

/-- What an exponent begins with, or what stands after it if there is none, ends a fraction. -/
theorem exponent_first {exponent? : Option Exponent} (h : ExponentWritten text exponent?)
    (hrest : Ends rest) : NoDigit (text ++ rest) ∧ (text ++ rest).head? ≠ some '.' := by
  cases h with
  | none =>
    refine ⟨hrest.noDigit, fun hpoint => ?_⟩
    obtain ⟨rest, rfl⟩ := List.head?_eq_some_iff.1 hpoint
    exact hrest.not_numeral.2.1 rfl
  | letter hletter => rcases hletter with rfl | rfl <;> exact ⟨noDigit_cons rfl _, by simp⟩

theorem scanUnsigned_append {negative : Bool} {numeral : Numeral}
    (h : UnsignedWritten negative text numeral) (hrest : Ends rest) :
    scanUnsigned atEnd negative (text ++ rest) = .ok (numeral, rest) := by
  obtain ⟨hwhole, hfraction, hexponent⟩ := h
  obtain ⟨hdigit, hpoint⟩ := exponent_first hexponent hrest
  have hnext := scanFraction_append atEnd hfraction hdigit hpoint
  have hwhole' := scanWhole_append atEnd hwhole (fraction_first hfraction hdigit)
  rw [List.append_assoc, List.append_assoc]
  exact bind_eq_ok.2 ⟨_, hwhole', bind_eq_ok.2 ⟨_, hnext,
    bind_eq_ok.2 ⟨_, scanExponent_append atEnd hexponent hrest, rfl⟩⟩⟩

theorem le_foldl_decimal (ds : List Char) (m : Nat) :
    m ≤ ds.foldl (fun n c => n * 10 + digitValue c) m := by
  induction ds generalizing m with
  | nil => exact Nat.le_refl m
  | cons d ds ih =>
    have hstep := ih (m * 10 + digitValue d)
    rw [List.foldl_cons]
    omega

/-- All digits are taken as long as the number that they spell fits. -/
theorem accumulate_eq {ds : List Char} {m : Nat}
    (hfits : ds.foldl (fun n c => n * 10 + digitValue c) m ≤ maxWhole) :
    accumulate m ds = (ds.foldl (fun n c => n * 10 + digitValue c) m, []) := by
  induction ds generalizing m with
  | nil => rfl
  | cons d ds ih =>
    rw [List.foldl_cons] at hfits
    rw [accumulate, if_pos (Nat.le_trans (le_foldl_decimal ds _) hfits), List.foldl_cons, ih hfits]

theorem value_whole {ds : List Char} (hsmall : decimalNumber ds < Nat.pow 2 63) (negative : Bool) :
    value ⟨negative, ds, [], none⟩ =
      if !negative then .ok (.natural (decimalNumber ds))
      else if 0 < decimalNumber ds ∧ decimalNumber ds ≤ Nat.pow 2 63 then
        .ok (.negative (decimalNumber ds))
      else .ok (signed true (decimalNumber ds).toUInt64.toFloat) := by
  have hmax : Nat.pow 2 63 ≤ maxWhole := by decide
  have hdigits : accumulate 0 ds = (decimalNumber ds, []) :=
    accumulate_eq (Nat.le_trans (Nat.le_of_lt hsmall) hmax)
  simp only [value, hdigits, accumulate]
  rfl

end Numeral

theorem NumeralWritten.scans (atEnd : Cause) {numeral : Numeral} (h : NumeralWritten text numeral)
    (hrest : Ends rest) : Numeral.scan atEnd (text ++ rest) = .ok (numeral, rest) := by
  cases h with
  | negative h => exact Numeral.scanUnsigned_append atEnd h hrest
  | positive h =>
    have hread := Numeral.scanUnsigned_append atEnd h hrest
    obtain ⟨hwhole, -, -⟩ := h
    obtain ⟨d, ds, rfl⟩ := List.exists_cons_of_ne_nil hwhole.nonempty
    have hd : d ≠ '-' := fun heq => by
      have hdigit := hwhole.digits d List.mem_cons_self
      rw [heq] at hdigit
      cases hdigit
    unfold Numeral.scan
    split
    · rename_i heq
      exact absurd (List.cons.inj heq).1 hd
    · exact hread

/-- A numeral is read as the number that it is worth, if it is worth any. -/
theorem NumeralWritten.number_eq_ok_iff {numeral : Numeral} (h : NumeralWritten text numeral)
    (hrest : Ends rest) {n : Number} {left : List Char} :
    number (text ++ rest) = .ok (n, left) ↔ numeral.value = .ok n ∧ left = rest := by
  rw [number, h.scans _ hrest]
  simp only [bind, Except.bind]
  cases numeral.value with
  | error => simp
  | ok m => simp [pure, Except.pure, eq_comm]

/-- A numeral begins with its sign or with a digit. -/
theorem NumeralWritten.first {numeral : Numeral} (h : NumeralWritten text numeral) :
    ∃ c more, text = c :: more ∧ (c = '-' ∨ isDigit c = true) := by
  cases h with
  | negative => exact ⟨'-', _, rfl, Or.inl rfl⟩
  | positive h =>
    obtain ⟨hwhole, -, -⟩ := h
    obtain ⟨c, more, rfl⟩ := List.exists_cons_of_ne_nil hwhole.nonempty
    exact ⟨c, _, rfl, Or.inr (hwhole.digits c List.mem_cons_self)⟩

theorem WholeWritten.unsigned (h : WholeWritten text) (negative : Bool) :
    UnsignedWritten negative text ⟨negative, text, [], none⟩ := by
  have hparts : UnsignedWritten negative (text ++ ([] ++ [])) _ := .parts h .none .none
  rwa [List.append_nil, List.append_nil] at hparts

/-- An integer that fits 63 bits is worth itself. -/
theorem IntegerWritten.numeral {n : Number} (h : IntegerWritten text n) :
    ∃ numeral, NumeralWritten text numeral ∧ numeral.value = .ok n := by
  cases h with
  | natural hwhole hsmall =>
    exact ⟨_, .positive (hwhole.unsigned false), Numeral.value_whole hsmall false⟩
  | @negative digits hwhole hsmall hpos =>
    have hle : decimalNumber digits ≤ Nat.pow 2 63 := Nat.le_of_lt hsmall
    refine ⟨_, .negative (hwhole.unsigned true), (Numeral.value_whole hsmall true).trans ?_⟩
    rw [if_neg (by decide), if_pos ⟨hpos, hle⟩]
  | minusZero =>
    have hzero : WholeWritten ['0'] := ⟨List.all_eq_true.1 rfl, by decide, fun _ => rfl⟩
    exact ⟨_, .negative (hzero.unsigned true), Numeral.value_whole (by decide) true⟩

/-! ### Reading values -/

/-- What begins as a numeral does is no white space and no bracket. -/
theorem numeral_first {c : Char} (h : c = '-' ∨ isDigit c = true) :
    isSpace c = false ∧ c ≠ '[' ∧ c ≠ '\x7b' ∧ c ≠ ']' := by
  have hother : ∀ d, d ≠ '-' → isDigit d = false → c ≠ d := fun d => numeral_first_ne h
  have hspace : isSpace c = false := by
    simp only [isSpace, Bool.or_eq_false_iff, beq_eq_false_iff_ne]
    exact ⟨⟨⟨hother ' ' (by decide) rfl, hother '\n' (by decide) rfl⟩,
      hother '\t' (by decide) rfl⟩, hother '\r' (by decide) rfl⟩
  exact ⟨hspace, hother '[' (by decide) rfl, hother '\x7b' (by decide) rfl,
    hother ']' (by decide) rfl⟩

/-- A numeral is read as a value if it is worth a number. -/
theorem NumeralWritten.value_eq_ok_iff {numeral : Numeral} (h : NumeralWritten text numeral)
    (n : Nat) (hrest : Ends rest) {v : Value} {left : List Char} :
    value n (text ++ rest) = .ok (v, left) ↔
      ∃ m, numeral.value = .ok m ∧ v = .number m ∧ left = rest := by
  obtain ⟨c, more, rfl, hfirst⟩ := h.first
  obtain ⟨hspace, hlist, hobject, -⟩ := numeral_first hfirst
  rw [List.cons_append, value_of_scalar (skipSpace_cons hspace _) hlist hobject, scalar_eq_ok_iff]
  constructor
  · intro hread
    cases hread with
    | number _ hnumber =>
      obtain ⟨hvalue, rfl⟩ := (h.number_eq_ok_iff hrest).1 hnumber
      exact ⟨_, hvalue, rfl, rfl⟩
    | null | true | false | string => rcases hfirst with heq | heq <;> cases heq
  · rintro ⟨m, hvalue, rfl, rfl⟩
    exact .number hfirst ((h.number_eq_ok_iff hrest).2 ⟨hvalue, rfl⟩)

/-- The text is read as the value wherever a token may end after it. -/
def Reads (n : Nat) (text : List Char) (v : Value) : Prop :=
  ∀ rest, Ends rest → value n (text ++ rest) = .ok (v, rest)

theorem ScalarWritten.reads {v : Value} (h : ScalarWritten text v) (n : Nat) : Reads n text v := by
  intro rest hrest
  have hread : ∀ {c : Char} {left : List Char}, text ++ rest = c :: left → isSpace c = false →
      c ≠ '[' → c ≠ '\x7b' → ScalarRead left rest c v → value n (text ++ rest) = .ok (v, rest) := by
    intro c left htext hspace hlist hobject hscalar
    rw [htext]
    exact value_eq_ok_iff.2 (.scalar (skipSpace_cons hspace left) hlist hobject
      (scalar_eq_ok_iff.2 hscalar))
  cases h with
  | null => exact hread rfl rfl (by decide) (by decide) (.null rfl)
  | boolTrue => exact hread rfl rfl (by decide) (by decide) (.true rfl)
  | boolFalse => exact hread rfl rfl (by decide) (by decide) (.false rfl)
  | string hstring =>
    obtain ⟨left, htext, hread'⟩ := hstring.reads rest
    exact hread htext rfl (by decide) (by decide) (.string hread')
  | number hnumber =>
    obtain ⟨numeral, hnumeral, hvalue⟩ := hnumber.numeral
    exact (hnumeral.value_eq_ok_iff n hrest).2 ⟨_, hvalue, rfl, rfl⟩

section Nested

variable {item : List Char → Value → Prop} {v : Value}

/-- White space around a value is read over before it and left after it. -/
theorem Spaced.reads (hitem : ∀ {text v}, item text v → Reads n text v) (h : Spaced item text v)
    (hrest : Ends rest) : ∃ gap, Gap gap ∧ value n (text ++ rest) = .ok (v, gap ++ rest) := by
  obtain ⟨hbefore, hafter, hcore⟩ := h
  rename_i before core after
  refine ⟨after, hafter, ?_⟩
  rw [List.append_assoc, List.append_assoc, ← value_skipSpace, skipSpace_append hbefore,
    value_skipSpace]
  exact hitem hcore _ (ends_gap hafter hrest)

/-- Every list begins with its first value. -/
theorem Commas.first (hitem : ∀ {text v}, item text v → Reads n text v) {items : List Value}
    (h : Commas (Spaced item) text items) (rest : List Char) :
    ∃ c left, skipSpace (text ++ ']' :: rest) = c :: left ∧ c ≠ ']' := by
  cases h with
  | last hfirst =>
    obtain ⟨gap, -, hread⟩ := hfirst.reads hitem (ends_list rest)
    exact value_first hread
  | @more text more _ _ hfirst =>
    obtain ⟨gap, -, hread⟩ := hfirst.reads hitem (ends_comma (more ++ ']' :: rest))
    rw [List.append_assoc]
    exact value_first hread

/-- The values of a list are read one by one, given that the first of them is come to. -/
theorem Commas.exists_elementsRead (hitem : ∀ {text v}, item text v → Reads n text v)
    {items : List Value} (h : Commas (Spaced item) text items) (rest : List Char) :
    ∃ steps, ∀ first cs,
      nextElement .kept first cs = .ok (.more (skipSpace (text ++ ']' :: rest))) →
      ElementsRead .kept (value n) (']' :: rest) steps first cs items := by
  induction h with
  | last hfirst =>
    obtain ⟨gap, hgap, hread⟩ := hfirst.reads hitem (ends_list rest)
    rw [← value_skipSpace] at hread
    have hclose : skipSpace (gap ++ ']' :: rest) = ']' :: rest := by
      rw [skipSpace_append hgap, skipSpace_cons rfl]
    exact ⟨2, fun first cs hnext =>
      .more hnext hread (.stop (nextElement_eq_stop_iff.2 ⟨rest, hclose, rfl⟩))⟩
  | @more text more _ _ hfirst hmore ih =>
    obtain ⟨gap, hgap, hread⟩ := hfirst.reads hitem (ends_comma (more ++ ']' :: rest))
    obtain ⟨steps, ih⟩ := ih
    have htext : text ++ ',' :: more ++ ']' :: rest = text ++ ',' :: (more ++ ']' :: rest) := by
      simp
    have hcomma : skipSpace (gap ++ ',' :: (more ++ ']' :: rest)) =
        ',' :: (more ++ ']' :: rest) := by
      rw [skipSpace_append hgap, skipSpace_cons rfl]
    have hnext' := nextElement_comma hcomma (hmore.first hitem rest)
    rw [← value_skipSpace] at hread
    exact ⟨steps + 1, fun first cs hnext => .more (htext ▸ hnext) hread (ih false _ hnext')⟩

theorem reads_array (hitem : ∀ {text v}, item text v → Reads n text v) {items : List Value}
    (h : Commas (Spaced item) text items) :
    Reads (n + 1) ('[' :: text ++ [']']) (.array items) := by
  intro rest _
  obtain ⟨steps, hread⟩ := h.exists_elementsRead hitem rest
  have hnext := hread true _ (nextElement_first (h.first hitem rest))
  have helements := elements_steps (value_shrinks n) (elements_eq_ok_iff.2 hnext)
    (Nat.lt_succ_self _)
  have htext : '[' :: text ++ [']'] ++ rest = '[' :: (text ++ ']' :: rest) := by simp
  rw [htext]
  exact value_eq_ok_iff.2 (.array (skipSpace_cons rfl _) helements (skipSpace_cons rfl rest))

/-- A member begins with the opening quote of its name. The name, the colon and the text of the
value are read one after the other, and the text of the value is all that the member owes to it. -/
theorem MemberWritten.opens {key : String} (h : MemberWritten item text (key, v))
    (rest : List Char) : ∃ left left' valueText, skipSpace (text ++ rest) = '"' :: left ∧
      string left = .ok (key, left') ∧ colon left' = .ok ((), valueText ++ rest) ∧
      Spaced item valueText v ∧
      ∀ {item' : List Char → Value → Prop} {w : Value}, Spaced item' valueText w →
        MemberWritten item' text (key, w) := by
  obtain ⟨hkey, hvalue⟩ := h
  rename_i keyText valueText
  have hnamed := hkey
  obtain ⟨hbefore, hafter, hname⟩ := hnamed
  rename_i before name after
  obtain ⟨left, hleft, hstring⟩ := hname.reads (after ++ ':' :: (valueText ++ rest))
  refine ⟨left, _, valueText, ?_, hstring, ?_, hvalue, fun hvalue' => .named hkey hvalue'⟩
  · have htext : before ++ name ++ after ++ ':' :: valueText ++ rest =
        before ++ (name ++ (after ++ ':' :: (valueText ++ rest))) := by simp
    rw [htext, skipSpace_append hbefore, hleft, skipSpace_cons rfl]
  · rw [colon_eq_ok_iff, skipSpace_append hafter, skipSpace_cons rfl]

/-- A member is read from after the opening quote of its name. -/
theorem MemberWritten.reads (hitem : ∀ {text v}, item text v → Reads n text v)
    {member : String × Value} (h : MemberWritten item text member) (hrest : Ends rest) :
    ∃ left gap, skipSpace (text ++ rest) = '"' :: left ∧ Gap gap ∧
      ∀ before, keepMember (value n) before left = .ok (before ++ [member], gap ++ rest) := by
  obtain ⟨left, left', valueText, hfirst, hstring, hcolon, hvalue, -⟩ := h.opens rest
  obtain ⟨gap, hgap, hread⟩ := hvalue.reads hitem hrest
  exact ⟨left, gap, hfirst, hgap, fun before =>
    keepMember_eq_ok_iff.2 ⟨_, _, _, _, hstring, hcolon, hread, rfl⟩⟩

/-- The members of an object are read one by one, given that the first of them is come to. -/
theorem Commas.exists_membersRead (hitem : ∀ {text v}, item text v → Reads n text v)
    {members : List (String × Value)} (h : Commas (MemberWritten item) text members)
    (rest : List Char) : ∃ left steps, skipSpace (text ++ '\x7d' :: rest) = '"' :: left ∧
      ∀ before first cs, nextKey .kept first cs = .ok (.more left) →
        MembersRead .kept (keepMember (value n)) ('\x7d' :: rest) (before ++ members) steps first
          before cs := by
  induction h with
  | last hmember =>
    obtain ⟨left, gap, hfirst, hgap, hread⟩ :=
      hmember.reads hitem (ends_object rest)
    have hclose : skipSpace (gap ++ '\x7d' :: rest) = '\x7d' :: rest := by
      rw [skipSpace_append hgap, skipSpace_cons rfl]
    exact ⟨left, 2, hfirst, fun before first cs hnext =>
      .more hnext (hread before) (.stop (nextKey_eq_stop_iff.2 ⟨rest, hclose, rfl⟩))⟩
  | @more text more member members hmember hmore ih =>
    obtain ⟨left, gap, hfirst, hgap, hread⟩ :=
      hmember.reads hitem (ends_comma (more ++ '\x7d' :: rest))
    obtain ⟨left', steps, hsecond, ih⟩ := ih
    have htext : text ++ ',' :: more ++ '\x7d' :: rest =
        text ++ ',' :: (more ++ '\x7d' :: rest) := by simp
    have hcomma : skipSpace (gap ++ ',' :: (more ++ '\x7d' :: rest)) =
        ',' :: (more ++ '\x7d' :: rest) := by
      rw [skipSpace_append hgap, skipSpace_cons rfl]
    have hnext' : nextKey .kept false (gap ++ ',' :: (more ++ '\x7d' :: rest)) =
        .ok (.more left') := nextKey_eq_more_iff.2 ⟨_, hcomma, hsecond⟩
    refine ⟨left, steps + 1, htext ▸ hfirst, fun before first cs hnext => ?_⟩
    have hrest := ih (before ++ [member]) false _ hnext'
    rw [List.append_assoc] at hrest
    exact .more hnext (hread before) hrest

theorem reads_object (hitem : ∀ {text v}, item text v → Reads n text v)
    {members : List (String × Value)} (h : Commas (MemberWritten item) text members) :
    Reads (n + 1) ('\x7b' :: text ++ ['\x7d']) (.object members) := by
  intro rest _
  obtain ⟨left, steps, hfirst, hread⟩ := h.exists_membersRead hitem rest
  have hnext : nextKey .kept true (text ++ '\x7d' :: rest) = .ok (.more left) :=
    nextKey_eq_more_iff.2 hfirst
  have hmembers := foldMembers_steps (keepMember_shrinks (value_shrinks n))
    (foldMembers_eq_ok_iff.2 (hread [] true _ hnext)) (Nat.lt_succ_self _)
  have htext : '\x7b' :: text ++ ['\x7d'] ++ rest = '\x7b' :: (text ++ '\x7d' :: rest) := by simp
  rw [htext]
  exact value_eq_ok_iff.2 (.object (skipSpace_cons rfl _) hmembers (skipSpace_cons rfl rest))

theorem NestedWritten.reads (hitem : ∀ {text v}, item text v → Reads n text v)
    (h : NestedWritten item text v) : Reads (n + 1) text v := by
  cases h with
  | array hitems => exact reads_array hitem hitems
  | object hmembers => exact reads_object hitem hmembers
  | @emptyArray gap hgap =>
    intro rest _
    have hclose : skipSpace (gap ++ ']' :: rest) = ']' :: rest := by
      rw [skipSpace_append hgap, skipSpace_cons rfl]
    have hread : ElementsRead .kept (value n) (']' :: rest) ((gap ++ ']' :: rest).length + 1) true
        (gap ++ ']' :: rest) [] := .stop (nextElement_eq_stop_iff.2 ⟨rest, hclose, rfl⟩)
    have htext : '[' :: gap ++ [']'] ++ rest = '[' :: (gap ++ ']' :: rest) := by simp
    rw [htext]
    exact value_eq_ok_iff.2 (.array (skipSpace_cons rfl _) (elements_eq_ok_iff.2 hread)
      (skipSpace_cons rfl rest))
  | @emptyObject gap hgap =>
    intro rest _
    have hclose : skipSpace (gap ++ '\x7d' :: rest) = '\x7d' :: rest := by
      rw [skipSpace_append hgap, skipSpace_cons rfl]
    have hread : MembersRead .kept (keepMember (value n)) ('\x7d' :: rest) []
        ((gap ++ '\x7d' :: rest).length + 1) true [] (gap ++ '\x7d' :: rest) :=
      .stop (nextKey_eq_stop_iff.2 ⟨rest, hclose, rfl⟩)
    have htext : '\x7b' :: gap ++ ['\x7d'] ++ rest = '\x7b' :: (gap ++ '\x7d' :: rest) := by simp
    rw [htext]
    exact value_eq_ok_iff.2 (.object (skipSpace_cons rfl _) (foldMembers_eq_ok_iff.2 hread)
      (skipSpace_cons rfl rest))

end Nested

/-- **Well-formed texts are read**, each as the value that it is written for, by a reader that
may open as many brackets. The induction is on the number of brackets. -/
theorem Written.reads {depth : Nat} {v : Value} (h : Written depth text v) (hdepth : depth ≤ n) :
    Reads n text v := by
  induction depth generalizing n text v with
  | zero => exact ScalarWritten.reads h n
  | succ depth ih =>
    obtain ⟨n, rfl⟩ := Nat.exists_eq_add_of_le' (Nat.le_trans (Nat.succ_pos depth) hdepth)
    rcases h with hscalar | hnested
    · exact hscalar.reads _
    · exact hnested.reads fun hitem => ih hitem (Nat.le_of_succ_le_succ hdepth)

/-! ### Decoding values -/

/-- What a faithful decoder makes of a text is what it makes of the value that can be read from
it. -/
theorem Decoder.Faithful.toOption_read_of_reads {α : Type} {d : Decoder α} (h : d.Faithful)
    {text : String} {v : Value} (htext : Spaced (Reads nestingLimit) text.toList v) :
    (d.read text).toOption = (d.convert v).toOption := by
  obtain ⟨gap, hgap, hvalue⟩ := htext.reads id ends_nil
  rw [List.append_nil, List.append_nil] at hvalue
  have hend : skipSpace gap = [] := by
    rw [← List.append_nil gap, skipSpace_append hgap]
    rfl
  rw [read]
  cases hscan : d.scan nestingLimit text.toList with
  | ok result =>
    obtain ⟨hconvert, hleft⟩ := h.convert_of_scan hvalue hscan
    simp [hleft, hend, hconvert]
  | error fault =>
    have hsame := h hvalue
    rw [hscan] at hsame
    cases hconvert : d.convert v with
    | error m => rfl
    | ok a => simp [hconvert] at hsame

end VisitorGen.Json
