import Mathlib.Tactic.SplitIfs
import VisitorGen.Text.Shown

/-! Texts shown as themselves. What bytes show is read character by character, each from its first
byte. The bytes of a character in UTF-8 show that character and leave what stands after them
(`showFirst_encode`), so that a text comes back whole (`shown_toUTF8`). -/
namespace VisitorGen.Text

/-! ### Characters by the number of their bytes -/

theorem showFirst_of_lead {b second : Nat} {lead : Lead} {rest : List Nat} (hb : 0x80 ≤ b)
    (hlead : Lead.ofByte? b = some lead) (hsecond : lead.low ≤ second ∧ second ≤ lead.high) :
    showFirst b (second :: rest) = showRest (lead.bits * 64 + (second - 0x80)) lead.more rest := by
  simp only [showFirst, if_neg (Nat.not_lt.2 hb), hlead, if_pos hsecond]

theorem showRest_succ (bits more n : Nat) (rest : List Nat) :
    showRest bits (more + 1) ((n % 64 + 0x80) :: rest) = showRest (bits * 64 + n % 64) more rest := by
  rw [showRest, if_pos (by omega), Nat.add_sub_cancel]

theorem showFirst_two {n : Nat} (h : 0x80 ≤ n) (hlt : n < 0x800) (rest : List Nat) :
    showFirst (n / 64 + 0xC0) ((n % 64 + 0x80) :: rest) = (Char.ofNat n, rest) := by
  have hlead : Lead.ofByte? (n / 64 + 0xC0) = some ⟨n / 64, 0x80, 0xBF, 0⟩ := by
    rw [Lead.ofByte?, if_pos (by omega), Nat.add_sub_cancel]
  have hcode : n / 64 * 64 + (n % 64 + 0x80 - 0x80) = n := by omega
  rw [showFirst_of_lead (by omega) hlead (by dsimp only; omega), showRest, hcode]

theorem showFirst_three {n : Nat} (h : 0x800 ≤ n) (hlt : n < 0x10000)
    (hsurrogate : n < 0xD800 ∨ 0xDFFF < n) (rest : List Nat) :
    showFirst (n / 4096 + 0xE0) ((n / 64 % 64 + 0x80) :: (n % 64 + 0x80) :: rest) =
      (Char.ofNat n, rest) := by
  obtain ⟨lead, hlead, hbits, hmore, hsecond⟩ : ∃ lead,
      Lead.ofByte? (n / 4096 + 0xE0) = some lead ∧ lead.bits = n / 4096 ∧ lead.more = 1 ∧
        lead.low ≤ n / 64 % 64 + 0x80 ∧ n / 64 % 64 + 0x80 ≤ lead.high := by
    unfold Lead.ofByte?
    split_ifs <;> first
      | exact ⟨_, rfl, by dsimp only; omega, rfl, by dsimp only; omega, by dsimp only; omega⟩
      | omega
  have hcode : (n / 4096 * 64 + (n / 64 % 64 + 0x80 - 0x80)) * 64 + n % 64 = n := by omega
  rw [showFirst_of_lead (by omega) hlead hsecond, hbits, hmore, showRest_succ, showRest, hcode]

theorem showFirst_four {n : Nat} (h : 0x10000 ≤ n) (hlt : n < 0x110000) (rest : List Nat) :
    showFirst (n / 262144 + 0xF0)
        ((n / 4096 % 64 + 0x80) :: (n / 64 % 64 + 0x80) :: (n % 64 + 0x80) :: rest) =
      (Char.ofNat n, rest) := by
  obtain ⟨lead, hlead, hbits, hmore, hsecond⟩ : ∃ lead,
      Lead.ofByte? (n / 262144 + 0xF0) = some lead ∧ lead.bits = n / 262144 ∧ lead.more = 2 ∧
        lead.low ≤ n / 4096 % 64 + 0x80 ∧ n / 4096 % 64 + 0x80 ≤ lead.high := by
    unfold Lead.ofByte?
    split_ifs <;> first
      | exact ⟨_, rfl, by dsimp only; omega, rfl, by dsimp only; omega, by dsimp only; omega⟩
      | omega
  have hcode : ((n / 262144 * 64 + (n / 4096 % 64 + 0x80 - 0x80)) * 64 + n / 64 % 64) * 64 +
      n % 64 = n := by omega
  rw [showFirst_of_lead (by omega) hlead hsecond, hbits, hmore, showRest_succ, showRest_succ,
    showRest, hcode]

/-! ### Characters and texts -/

/-- The bytes of a character show the character, whatever stands after them. -/
theorem showFirst_encode (c : Char) (rest : List Nat) :
    ∃ b tail, (String.utf8EncodeChar c).map UInt8.toNat = b :: tail ∧
      showFirst b (tail ++ rest) = (c, rest) := by
  have hvalid : c.toNat < 0xD800 ∨ 0xDFFF < c.toNat ∧ c.toNat < 0x110000 := c.valid
  have hc : Char.ofNat c.toNat = c := Char.ofNat_toNat c
  have hbytes : (String.utf8EncodeChar c).map UInt8.toNat =
      if c.toNat ≤ 0x7F then [c.toNat]
      else if c.toNat ≤ 0x7FF then [c.toNat / 64 + 0xC0, c.toNat % 64 + 0x80]
      else if c.toNat ≤ 0xFFFF then
        [c.toNat / 4096 + 0xE0, c.toNat / 64 % 64 + 0x80, c.toNat % 64 + 0x80]
      else [c.toNat / 262144 + 0xF0, c.toNat / 4096 % 64 + 0x80, c.toNat / 64 % 64 + 0x80,
        c.toNat % 64 + 0x80] := by
    simp only [String.utf8EncodeChar, show c.val.toNat = c.toNat from rfl]
    split_ifs <;> simp <;> omega
  rw [hbytes]
  split_ifs with hone htwo hthree
  · refine ⟨_, _, rfl, ?_⟩
    unfold showFirst
    rw [if_pos (by omega), hc, List.nil_append]
  · exact ⟨_, _, rfl, (showFirst_two (by omega) (by omega) rest).trans (by rw [hc])⟩
  · exact ⟨_, _, rfl, (showFirst_three (by omega) (by omega) (by omega) rest).trans (by rw [hc])⟩
  · exact ⟨_, _, rfl, (showFirst_four (by omega) (by omega) rest).trans (by rw [hc])⟩

theorem showBytes_encode {cs : List Char} {steps : Nat}
    (h : (cs.flatMap String.utf8EncodeChar).length ≤ steps) :
    showBytes steps ((cs.flatMap String.utf8EncodeChar).map UInt8.toNat) = cs := by
  induction cs generalizing steps with
  | nil => cases steps <;> rfl
  | cons c cs ih =>
    obtain ⟨b, tail, hbytes, hfirst⟩ :=
      showFirst_encode c ((cs.flatMap String.utf8EncodeChar).map UInt8.toNat)
    rw [← List.length_map UInt8.toNat, List.flatMap_cons, List.map_append, hbytes,
      List.cons_append] at h
    cases steps with
    | zero => cases h
    | succ steps =>
      have hrest : (cs.flatMap String.utf8EncodeChar).length ≤ steps := by
        simp at h ⊢
        omega
      rw [List.flatMap_cons, List.map_append, hbytes, List.cons_append, showBytes, hfirst, ih hrest]

/-- A text in UTF-8 is shown as itself. -/
theorem shown_toUTF8 (text : String) : shown text.toUTF8 = text := by
  have hbytes : text.toUTF8 = (text.toList.flatMap String.utf8EncodeChar).toByteArray := by
    have h := String.toByteArray_ofList (l := text.toList)
    rwa [String.ofList_toList] at h
  rw [hbytes, shown, List.toList_data_toByteArray, showBytes_encode (Nat.le_of_eq ?_),
    String.ofList_toList]
  exact List.size_toByteArray.symm

end VisitorGen.Text
