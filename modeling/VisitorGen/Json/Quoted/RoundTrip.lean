import VisitorGen.Json.Quoted
import VisitorGen.Json.Quoted.Scan

/-! Reading takes back what quoting has written. The quoted form ends where it ends:
whatever stands after it is left alone (`string_quoted`). -/
namespace VisitorGen.Json

/-! ### Escapes -/

theorem hexValue?_digitChar {n : Nat} (h : n < 16) : hexValue? n.digitChar = some n := by
  revert n
  decide

theorem hexEscape_hexQuad {n : Nat} (h : n < 65536) (rest : List Char) :
    hexEscape (hexQuad n ++ rest) = .ok (n, rest) := by
  have hsize : ∀ c : Char, 1 ≤ c.utf8Size := fun c => c.utf8Size_pos
  have hlong : ¬ byteCount (hexQuad n ++ rest) < 4 := by
    have := hsize (n / 4096 % 16).digitChar
    have := hsize (n / 256 % 16).digitChar
    have := hsize (n / 16 % 16).digitChar
    have := hsize (n % 16).digitChar
    simp only [hexQuad, byteCount, List.cons_append, List.nil_append, List.foldr_cons]
    omega
  rw [hexEscape, if_neg hlong]
  simp only [hexQuad, List.cons_append, List.nil_append,
    hexValue?_digitChar (Nat.mod_lt _ (by decide : 0 < 16))]
  congr 2
  omega

/-! ### Characters -/

/-- A character below U+0020 without an escape of its own is written by its number. -/
theorem character_hexQuad {c : Char} (h : c.toNat < 0x20) (rest : List Char) :
    character ('\\' :: 'u' :: hexQuad c.toNat ++ rest) = .ok (some c, rest) := by
  have hquad : c.toNat < 65536 := by omega
  have htrail : isTrailSurrogate c.toNat = false := by
    simp only [isTrailSurrogate, Bool.and_eq_false_iff, decide_eq_false_iff_not]
    omega
  have hlead : isLeadSurrogate c.toNat = false := by
    simp only [isLeadSurrogate, Bool.and_eq_false_iff, decide_eq_false_iff_not]
    omega
  simp [character, escape, shortEscape?, hexEscape_hexQuad hquad, htrail, hlead, bind,
    Except.bind, pure, Except.pure]

theorem character_quotedChar (c : Char) (rest : List Char) :
    character (quotedChar c ++ rest) = .ok (some c, rest) := by
  by_cases hquote : c = '"'
  · subst hquote; rfl
  by_cases hslash : c = '\\'
  · subst hslash; rfl
  by_cases hback : c = '\x08'
  · subst hback; rfl
  by_cases htab : c = '\t'
  · subst htab; rfl
  by_cases hline : c = '\n'
  · subst hline; rfl
  by_cases hform : c = '\x0c'
  · subst hform; rfl
  by_cases hreturn : c = '\r'
  · subst hreturn; rfl
  by_cases hlow : c.toNat < 0x20
  · have hform : quotedChar c = '\\' :: 'u' :: hexQuad c.toNat := by simp [quotedChar, *]
    rw [hform]
    exact character_hexQuad hlow rest
  · simp [quotedChar, character, *]

theorem characters_quoted (cs rest : List Char) (steps : Nat) (h : cs.length < steps) :
    characters steps (cs.flatMap quotedChar ++ '"' :: rest) = .ok (cs, rest) := by
  induction cs generalizing steps with
  | nil =>
    obtain ⟨steps, rfl⟩ := Nat.exists_eq_add_of_lt h
    simp [characters, character, bind, Except.bind, pure, Except.pure]
  | cons c cs ih =>
    cases steps with
    | zero => omega
    | succ steps =>
      have hrest := ih steps (by simpa using h)
      simp [characters, character_quotedChar, hrest, bind, Except.bind, pure, Except.pure]

/-! ### Texts -/

/-- Every character is written by one character or more. -/
theorem length_le_quoted (cs : List Char) : cs.length ≤ (cs.flatMap quotedChar).length := by
  induction cs with
  | nil => exact Nat.le_refl 0
  | cons c cs ih =>
    have hpos : 1 ≤ (quotedChar c).length := by
      unfold quotedChar
      repeat' split
      all_goals simp
    rw [List.flatMap_cons, List.length_append, List.length_cons]
    omega

theorem string_quoted (s : String) (rest : List Char) :
    string (s.toList.flatMap quotedChar ++ '"' :: rest) = .ok (s, rest) := by
  have hsteps : s.toList.length <
      (s.toList.flatMap quotedChar ++ '"' :: rest).length + 1 := by
    have := length_le_quoted s.toList
    rw [List.length_append]
    omega
  rw [string, characters_quoted _ _ _ hsteps]
  simp [bind, Except.bind, pure, Except.pure]

end VisitorGen.Json
