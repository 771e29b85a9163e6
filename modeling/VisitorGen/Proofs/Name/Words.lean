import Mathlib.Data.String.Basic
import VisitorGen.Name.SnakeCase

/-! The words of a name. Snake case copies a name piece by piece, from the byte of one capital
to the byte of the next. What comes out is described here letter by letter (`separate`), and by
the words that the name falls into (`AreWords`).

`toList_setApart`: after each letter, what is copied so far and the piece that is still open
make up the letters so far with their words set apart (`Copy.Passed`); so the finished copy is
the whole name set apart, whatever the sizes of its characters. -/
namespace VisitorGen.Name
open String (utf8Len)

/-- A letter of the rest of a name, with an underscore before it if it is a capital. -/
def separated (c : Char) : List Char := if c.isUpper then ['_', c] else [c]

/-- A text with an underscore before every capital but a leading one. -/
def separate : List Char → List Char
  | [] => []
  | c :: rest => c :: rest.flatMap separated

/-- The words of a text: nothing of it is lost or repeated, and it is cut before every capital
but a leading one, and nowhere else. -/
structure AreWords (text : List Char) (words : List (List Char)) : Prop where
  joined : words.flatten = text
  nonempty : [] ∉ words
  capital : ∀ word ∈ words.tail, ∃ c, word.head? = some c ∧ c.isUpper = true
  uncut : ∀ word ∈ words, ∀ c ∈ word.tail, c.isUpper = false

theorem separated_of_isUpper {c : Char} (h : c.isUpper = true) : separated c = ['_', c] := if_pos h

theorem separated_of_not_isUpper {c : Char} (h : c.isUpper = false) : separated c = [c] := by
  rw [separated, h]
  rfl

theorem separate_concat {text : List Char} (h : text ≠ []) (c : Char) :
    separate (text ++ [c]) = separate text ++ separated c := by
  obtain ⟨d, rest, rfl⟩ := List.exists_cons_of_ne_nil h
  simp [separate]

theorem mem_separated {c d : Char} (h : c ∈ separated d) : c = d ∨ c = '_' := by
  cases hd : d.isUpper with
  | true =>
    rw [separated_of_isUpper hd] at h
    exact (List.mem_pair.1 h).symm
  | false =>
    rw [separated_of_not_isUpper hd] at h
    exact Or.inl (List.mem_singleton.1 h)

theorem mem_separate {cs : List Char} {c : Char} (h : c ∈ separate cs) : c ∈ cs ∨ c = '_' := by
  cases cs with
  | nil => cases h
  | cons d rest =>
    rcases List.mem_cons.1 h with rfl | h
    · exact Or.inl List.mem_cons_self
    · obtain ⟨e, he, hc⟩ := List.mem_flatMap.1 h
      rcases mem_separated hc with rfl | hc
      · exact Or.inl (List.mem_cons_of_mem d he)
      · exact Or.inr hc

/-! ### Words -/

/-- The letters up to the next capital, and the words that begin with capitals. -/
theorem exists_words_after (rest : List Char) : ∃ (first : List Char) (words : List (List Char)),
    rest = first ++ words.flatten ∧ (∀ c ∈ first, c.isUpper = false) ∧
      (∀ word ∈ words, ∃ c tail, word = c :: tail ∧ c.isUpper = true ∧
        ∀ d ∈ tail, d.isUpper = false) ∧
      rest.flatMap separated = first ++ words.flatMap ('_' :: ·) := by
  induction rest with
  | nil => exact ⟨[], [], rfl, by simp, by simp, rfl⟩
  | cons c rest ih =>
    obtain ⟨first, words, hrest, hfirst, hwords, hseparated⟩ := ih
    cases hc : c.isUpper with
    | true =>
      refine ⟨[], (c :: first) :: words, by rw [hrest]; rfl, by simp, ?_, ?_⟩
      · exact List.forall_mem_cons.2 ⟨⟨c, first, rfl, hc, hfirst⟩, hwords⟩
      · rw [List.flatMap_cons, hseparated, separated_of_isUpper hc]
        rfl
    | false =>
      refine ⟨c :: first, words, by rw [hrest]; rfl, ?_, hwords, ?_⟩
      · exact List.forall_mem_cons.2 ⟨hc, hfirst⟩
      · rw [List.flatMap_cons, hseparated, separated_of_not_isUpper hc]
        rfl

theorem intercalate_underscore (word : List Char) (words : List (List Char)) :
    ['_'].intercalate (word :: words) = word ++ words.flatMap ('_' :: ·) := by
  induction words generalizing word with
  | nil => simp
  | cons next words ih => rw [List.intercalate_cons_cons, ih]; simp

/-- Every text falls into words, and with an underscore between each two it is set apart. -/
theorem exists_areWords (text : List Char) :
    ∃ words, AreWords text words ∧ separate text = ['_'].intercalate words := by
  cases text with
  | nil => exact ⟨[], ⟨rfl, by simp, by simp, by simp⟩, rfl⟩
  | cons c rest =>
    obtain ⟨first, words, hrest, hfirst, hwords, hseparated⟩ := exists_words_after rest
    refine ⟨(c :: first) :: words, ⟨by rw [hrest]; rfl, fun hnil => ?_, fun word hword => ?_,
      List.forall_mem_cons.2 ⟨hfirst, fun word hword => ?_⟩⟩, ?_⟩
    · rcases List.mem_cons.1 hnil with hnil | hnil
      · cases hnil
      · obtain ⟨_, _, hcons, -⟩ := hwords _ hnil
        cases hcons
    · obtain ⟨d, tail, rfl, hd, -⟩ := hwords word hword
      exact ⟨d, rfl, hd⟩
    · obtain ⟨d, tail, rfl, -, htail⟩ := hwords word hword
      exact htail
    · rw [separate, hseparated, intercalate_underscore]
      rfl

/-! ### Places -/

/-- The part of a name between two places is what stands between them. -/
theorem extract_between {name : String} {before word after : List Char}
    (h : name.toList = before ++ word ++ after) :
    String.Pos.Raw.extract name ⟨utf8Len before⟩ ⟨utf8Len (before ++ word)⟩ =
      String.ofList word := by
  rw [String.utf8Len_append, ← String.extract_of_valid before word after, ← h,
    String.ofList_toList]

theorem exists_split_cons {P : List Char → Char → Prop} {d : Char} {text : List Char} :
    (∃ before c after, d :: text = before ++ c :: after ∧ P before c) ↔
      P [] d ∨ ∃ before c after, text = before ++ c :: after ∧ P (d :: before) c := by
  constructor
  · rintro ⟨before, c, after, hsplit, hP⟩
    cases before with
    | nil =>
      cases hsplit
      exact Or.inl hP
    | cons e before =>
      cases hsplit
      exact Or.inr ⟨before, c, after, rfl, hP⟩
  · rintro (hP | ⟨before, c, after, rfl, hP⟩)
    · exact ⟨[], d, text, rfl, hP⟩
    · exact ⟨d :: before, c, after, rfl, hP⟩

/-- The places are those of the capitals, each as many bytes on as the text before it has. -/
theorem mem_capitalsFrom {place p : String.Pos.Raw} {text : List Char} :
    p ∈ capitalsFrom place text ↔ ∃ before c after, text = before ++ c :: after ∧
      c.isUpper = true ∧ p.byteIdx = place.byteIdx + utf8Len before := by
  induction text generalizing place with
  | nil => simp [capitalsFrom]
  | cons d text ih =>
    have hsize (before : List Char) : (place + d).byteIdx + utf8Len before =
        place.byteIdx + utf8Len (d :: before) := by
      rw [String.Pos.Raw.byteIdx_add_char, String.utf8Len_cons]
      omega
    have hrest : p ∈ capitalsFrom (place + d) text ↔ ∃ before c after,
        text = before ++ c :: after ∧ c.isUpper = true ∧
          p.byteIdx = place.byteIdx + utf8Len (d :: before) := by
      simp only [ih, hsize]
    rw [exists_split_cons, ← hrest, capitalsFrom]
    cases hd : d.isUpper with
    | true => simp [String.Pos.Raw.ext_iff]
    | false => simp

/-- The capitals stand one after the other. -/
theorem pairwise_capitalsFrom (place : String.Pos.Raw) (text : List Char) :
    (capitalsFrom place text).Pairwise (· < ·) := by
  induction text generalizing place with
  | nil => exact List.Pairwise.nil
  | cons c text ih =>
    rw [capitalsFrom]
    split
    · refine List.Pairwise.cons (fun p hp => ?_) (ih _)
      obtain ⟨before, d, after, -, -, hplace⟩ := mem_capitalsFrom.1 hp
      rw [String.Pos.Raw.byteIdx_add_char] at hplace
      have hsize := c.utf8Size_pos
      exact String.Pos.Raw.lt_iff.2 (by omega)
    · exact ih _

/-! ### Copying -/

/-- The letters `before` are passed: what is copied and the word that has begun at the last cut
are these letters set apart. -/
structure Copy.Passed (before : List Char) (copy : Copy) : Prop where
  split : ∃ done word, before = done ++ word ∧ copy.last = ⟨utf8Len done⟩ ∧
    copy.copied.toList ++ word = separate before

/-- A letter that is no capital, or a leading one, belongs to the word that has begun. -/
theorem Copy.Passed.letter {before : List Char} {copy : Copy} (h : copy.Passed before) {c : Char}
    (hc : before = [] ∨ c.isUpper = false) : copy.Passed (before ++ [c]) := by
  obtain ⟨done, word, hbefore, hlast, hcopied⟩ := h.split
  refine ⟨done, word ++ [c], by rw [hbefore, List.append_assoc], hlast, ?_⟩
  rw [← List.append_assoc, hcopied]
  by_cases hempty : before = []
  · rw [hempty]
    rfl
  · rw [separate_concat hempty, separated_of_not_isUpper (hc.resolve_left hempty)]

/-- A capital ends the word before it, which is copied, and begins the next. -/
theorem Copy.Passed.cut {name : String} {before after : List Char} {copy : Copy}
    (h : copy.Passed before) {c : Char} (hc : c.isUpper = true)
    (hname : name.toList = before ++ c :: after) :
    (copy.cut name ⟨utf8Len before⟩).Passed (before ++ [c]) := by
  -- Only a leading capital stands at place zero, since every character has a byte.
  rw [Copy.cut]
  split
  next hplace =>
    have hempty : before ≠ [] := fun hempty => by
      rw [hempty] at hplace
      exact absurd hplace (Nat.lt_irrefl 0)
    obtain ⟨done, word, rfl, hlast, hcopied⟩ := h.split
    refine ⟨done ++ word, [c], rfl, rfl, ?_⟩
    rw [hlast, extract_between hname, separate_concat hempty, separated_of_isUpper hc, ← hcopied]
    simp
  next hplace =>
    have hempty : before = [] := by
      rw [String.Pos.Raw.lt_iff, Nat.not_lt] at hplace
      exact String.utf8Len_eq_zero.1 (Nat.le_zero.1 hplace)
    exact h.letter (Or.inl hempty)

/-- The capitals of the rest are cut at, and the whole name is passed. -/
theorem Copy.Passed.foldl_cut {name : String} {before after : List Char} {copy : Copy}
    (h : copy.Passed before) (hname : name.toList = before ++ after) :
    ((capitalsFrom ⟨utf8Len before⟩ after).foldl (Copy.cut name) copy).Passed name.toList := by
  -- The letters go over from `after` to `before`; a cut leaves the place where the rest begins.
  induction after generalizing before copy with
  | nil => rwa [hname, List.append_nil]
  | cons c after ih =>
    have hnext : name.toList = before ++ [c] ++ after := by rw [hname, List.append_assoc]; rfl
    have hplace : (⟨utf8Len before⟩ : String.Pos.Raw) + c = ⟨utf8Len (before ++ [c])⟩ := by
      rw [String.utf8Len_append]
      simp [String.Pos.Raw.ext_iff]
    rw [capitalsFrom, hplace]
    cases hc : c.isUpper with
    | true => exact ih (h.cut hc hname) hnext
    | false => exact ih (h.letter (Or.inr hc)) hnext

/-- The finished copy is the name set apart, letter by letter. -/
theorem toList_setApart (name : String) : (setApart name).toList = separate name.toList := by
  have hstart : Copy.Passed [] ⟨"", 0⟩ := ⟨[], [], rfl, rfl, rfl⟩
  have hpassed : ((capitals name).foldl (Copy.cut name) ⟨"", 0⟩).Passed name.toList :=
    hstart.foldl_cut (List.nil_append _).symm
  obtain ⟨done, word, hname, hlast, hcopied⟩ := hpassed.split
  have hend : name.rawEndPos = ⟨utf8Len (done ++ word)⟩ := by
    rw [← hname, String.utf8Len_toList]
    rfl
  have hrest : name.toList = done ++ word ++ [] := by rw [hname, List.append_nil]
  rw [setApart, hlast, hend, extract_between hrest, String.toList_append, String.toList_ofList,
    hcopied]

theorem toList_snakeCase (name : String) :
    (snakeCase name).toList = Text.lowercase (separate name.toList) := by
  rw [snakeCase, String.toList_ofList, toList_setApart]

end VisitorGen.Name
