import VisitorGen.Proofs.Name.Words

/-! The characters of names. An identifier is spelt with ASCII letters, digits and
underscores only, and so is the parameter that a visit method names after it. What is
none of these is therefore free to set names apart. -/
namespace VisitorGen.Name

theorem isIdentifierRest_of_isIdentifierStart {c : Char} (h : isIdentifierStart c = true) :
    isIdentifierRest c = true := by
  simp only [isIdentifierStart, isIdentifierRest, Char.isAlphanum, Bool.or_eq_true] at h ⊢
  exact h.imp_left Or.inl

theorem exists_toList_of_isIdentifier {name : String} (h : isIdentifier name = true) :
    ∃ c rest, name.toList = c :: rest ∧ isIdentifierStart c = true ∧
      ∀ d ∈ rest, isIdentifierRest d = true := by
  unfold isIdentifier at h
  cases hname : name.toList with
  | nil =>
    rw [hname] at h
    cases h
  | cons c rest =>
    rw [hname, isIdentifierChars, Bool.and_eq_true, List.all_eq_true] at h
    exact ⟨c, rest, rfl, h.1, h.2⟩

theorem isIdentifierRest_of_mem {name : String} (h : isIdentifier name = true) :
    ∀ c ∈ name.toList, isIdentifierRest c = true := by
  obtain ⟨c, rest, hname, hc, hrest⟩ := exists_toList_of_isIdentifier h
  intro d hd
  rw [hname] at hd
  rcases List.mem_cons.1 hd with rfl | hd
  · exact isIdentifierRest_of_isIdentifierStart hc
  · exact hrest d hd

/-- A character that no identifier is spelt with. -/
theorem not_mem_of_isIdentifier {name : String} (h : isIdentifier name = true) {c : Char}
    (hc : isIdentifierRest c = false) : c ∉ name.toList := fun hmem => by
  rw [isIdentifierRest_of_mem h c hmem] at hc
  cases hc

theorem toNat_lt_of_isIdentifierRest {c : Char} (h : isIdentifierRest c = true) :
    c.toNat < 0x80 := by
  have hclasses : ((decide ('A'.val ≤ c.val ∧ c.val ≤ 'Z'.val) ||
      (decide ('a'.val ≤ c.val) && decide (c.val ≤ 'z'.val))) ||
      (decide ('0'.val ≤ c.val) && decide (c.val ≤ '9'.val)) || c == '_') = true := h
  simp only [Bool.or_eq_true, Bool.and_eq_true, decide_eq_true_eq, beq_iff_eq,
    UInt32.le_iff_toNat_le] at hclasses
  have hval : c.toNat = c.val.toNat := rfl
  have hupper : 'Z'.val.toNat = 0x5A := rfl
  have hlower : 'z'.val.toNat = 0x7A := rfl
  have hdigit : '9'.val.toNat = 0x39 := rfl
  rcases hclasses with hletter | rfl
  · omega
  · decide

/-- A name is an identifier when it begins with the character of a beginning and is spelt with
the characters of identifiers. -/
theorem isIdentifier_of_characters {name : String} {c : Char} (hhead : name.toList.head? = some c)
    (hc : isIdentifierStart c = true) (hall : ∀ d ∈ name.toList, isIdentifierRest d = true) :
    isIdentifier name = true := by
  obtain ⟨rest, hname⟩ := List.head?_eq_some_iff.1 hhead
  rw [isIdentifier, hname, isIdentifierChars, Bool.and_eq_true, List.all_eq_true]
  exact ⟨hc, fun d hd => hall d (hname ▸ List.mem_cons_of_mem c hd)⟩

/-! ### Parameters -/

theorem isIdentifierRest_toLower {c : Char} (h : isIdentifierRest c = true) :
    isIdentifierRest c.toLower = true := by
  have hall : ∀ n < 0x80, isIdentifierRest (Char.ofNat n) = true →
      isIdentifierRest (Char.ofNat n).toLower = true := by decide
  simpa using hall c.toNat (toNat_lt_of_isIdentifierRest h) (by simpa using h)

theorem isIdentifierStart_toLower {c : Char} (h : isIdentifierStart c = true) :
    isIdentifierStart c.toLower = true := by
  have hall : ∀ n < 0x80, isIdentifierStart (Char.ofNat n) = true →
      isIdentifierStart (Char.ofNat n).toLower = true := by decide
  have hascii := toNat_lt_of_isIdentifierRest (isIdentifierRest_of_isIdentifierStart h)
  simpa using hall c.toNat hascii (by simpa using h)

/-- In lower case an ASCII text changes letter by letter. -/
theorem lowerAfter_of_ascii {cs : List Char} (h : ∀ c ∈ cs, c.toNat < 0x80) (before : List Char) :
    Text.lowerAfter before cs = cs.map Char.toLower := by
  induction cs generalizing before with
  | nil => rfl
  | cons c cs ih =>
    have hc : c.toNat < 0x80 := h c List.mem_cons_self
    have hsigma : c ≠ '\u03a3' := fun heq => by
      rw [heq] at hc
      exact absurd hc (by decide)
    rw [Text.lowerAfter, if_neg hsigma, Text.lowerChar, if_pos hc,
      ih fun d hd => h d (List.mem_cons_of_mem c hd)]
    rfl

/-- In snake case an identifier changes letter by letter. -/
theorem toList_snakeCase_of_isIdentifier {kind : String} (h : isIdentifier kind = true) :
    (snakeCase kind).toList = (separate kind.toList).map Char.toLower := by
  rw [toList_snakeCase, Text.lowercase, lowerAfter_of_ascii fun c hc => ?_]
  rcases mem_separate hc with hc | rfl
  · exact toNat_lt_of_isIdentifierRest (isIdentifierRest_of_mem h c hc)
  · decide

/-- Snake case keeps the first letter, if not its case. -/
theorem isIdentifier_snakeCase {kind : String} (h : isIdentifier kind = true) :
    isIdentifier (snakeCase kind) = true := by
  obtain ⟨c, rest, hkind, hc, -⟩ := exists_toList_of_isIdentifier h
  refine isIdentifier_of_characters (c := c.toLower) ?_ (isIdentifierStart_toLower hc)
    fun d hd => ?_
  · rw [toList_snakeCase_of_isIdentifier h, hkind]
    rfl
  · rw [toList_snakeCase_of_isIdentifier h] at hd
    obtain ⟨e, he, rfl⟩ := List.mem_map.1 hd
    rcases mem_separate he with he | rfl
    · exact isIdentifierRest_toLower (isIdentifierRest_of_mem h e he)
    · rfl

theorem isIdentifier_append_underscore {name : String} (h : isIdentifier name = true) :
    isIdentifier (name ++ "_") = true := by
  obtain ⟨c, rest, hname, hc, -⟩ := exists_toList_of_isIdentifier h
  refine isIdentifier_of_characters (c := c) ?_ hc fun d hd => ?_
  · rw [String.toList_append, hname]
    rfl
  · rw [String.toList_append, List.mem_append] at hd
    rcases hd with hd | hd
    · exact isIdentifierRest_of_mem h d hd
    · obtain rfl : d = '_' := by simpa using hd
      rfl

theorem escapeKeyword_cases (name : String) :
    escapeKeyword name = name ∨ escapeKeyword name = name ++ "_" := by
  by_cases hkeyword : isKeyword name = true
  · exact Or.inr (by rw [escapeKeyword, if_pos hkeyword])
  · exact Or.inl (by rw [escapeKeyword, if_neg hkeyword])

/-- A parameter has a name of its own right. -/
theorem isIdentifier_parameterName {kind : String} (h : isIdentifier kind = true) :
    isIdentifier (parameterName kind) = true := by
  have hsnake := isIdentifier_snakeCase h
  rcases escapeKeyword_cases (snakeCase kind) with hescape | hescape
  · rw [parameterName, hescape]
    exact hsnake
  · rw [parameterName, hescape]
    exact isIdentifier_append_underscore hsnake

/-- The parameter named after an identifier is spelt with the characters of identifiers. -/
theorem isIdentifierRest_of_mem_parameterName {kind : String} (h : isIdentifier kind = true) :
    ∀ c ∈ (parameterName kind).toList, isIdentifierRest c = true :=
  isIdentifierRest_of_mem (isIdentifier_parameterName h)

end VisitorGen.Name
