import Mathlib.Data.List.Basic
import VisitorGen.Text.Splitting

/-! Texts taken apart at a separator of several characters: where it occurs first, where
it occurs last, and what stands between an opening and a closing. Each comes with the
condition under which a text that was put together is taken apart again. -/
namespace VisitorGen.Text

/-- What stands before and after the last occurrence of the separator. -/
def splitLast? (separator : List Char) : List Char → Option (List Char × List Char)
  | [] => none
  | c :: cs =>
    match splitLast? separator cs with
    | some (before, after) => some (c :: before, after)
    | none => ((c :: cs).dropPrefix? separator).map ([], ·)

/-- What stands between the opening, at the start of the text, and the closing, at its end. -/
def within? (opening closing text : List Char) : Option (List Char) :=
  (text.dropPrefix? opening).bind (·.dropSuffix? closing)

theorem dropPrefix?_append (p s : List Char) : (p ++ s).dropPrefix? p = some s :=
  List.dropPrefix?_append_of_beq s (by simp)

theorem dropSuffix?_append (p s : List Char) : (p ++ s).dropSuffix? s = some p :=
  List.dropSuffix?_eq_some_iff.2 ⟨s, rfl, by simp⟩

theorem within?_append (opening closing text : List Char) :
    within? opening closing (opening ++ text ++ closing) = some text := by
  rw [within?, List.append_assoc, dropPrefix?_append]
  exact dropSuffix?_append text closing

theorem eq_of_within? {opening closing text inner : List Char}
    (h : within? opening closing text = some inner) : text = opening ++ inner ++ closing := by
  obtain ⟨rest, hopening, hclosing⟩ := Option.bind_eq_some_iff.1 h
  obtain ⟨first, rfl, hfirst⟩ := List.dropPrefix?_eq_some_iff.1 hopening
  obtain ⟨last, rfl, hlast⟩ := List.dropSuffix?_eq_some_iff.1 hclosing
  rw [eq_of_beq hfirst, eq_of_beq hlast, List.append_assoc]

theorem within?_eq_none {opening text : List Char} (h : opening.isPrefixOf text = false)
    (closing : List Char) : within? opening closing text = none := by
  refine Option.eq_none_iff_forall_ne_some.2 fun inner hsome => ?_
  rw [eq_of_within? hsome, List.append_assoc, List.isPrefixOf_iff_prefix.2
    (List.prefix_append _ _)] at h
  cases h

/-- A text does not begin with a word whose character `d` cannot stand before `c`, when the
word has no `c`. -/
theorem not_prefix_of_mem {word before : List Char} {c d : Char} (hd : d ∈ word)
    (hbefore : d ∉ before ++ [c]) (hc : c ∉ word) (after : List Char) :
    ¬ word <+: before ++ [c] ++ after := by
  intro hstart
  rcases List.prefix_or_prefix_of_prefix hstart (List.prefix_append _ after) with hword | hname
  · exact hbefore (hword.subset hd)
  · exact hc (hname.subset (List.mem_append_right _ List.mem_cons_self))

/-! ### The first occurrence -/

/-- A separator is found where it was put if its first character does not occur before. -/
theorem dropInfix?_of_not_mem {c : Char} {before : List Char} (h : c ∉ before)
    (separator after : List Char) :
    (before ++ c :: separator ++ after).dropInfix? (c :: separator) = some (before, after) := by
  refine List.dropInfix?_eq_some_iff.2
    ⟨⟨_, rfl, by simp⟩, fun before' found after' heq hfound => ?_⟩
  obtain rfl : found = c :: separator := by simpa using hfound
  by_contra hlt
  have hc : (before ++ c :: separator ++ after)[before'.length]? = some c := by
    rw [heq]
    simp
  rw [List.append_assoc, List.getElem?_append_left (by omega)] at hc
  exact h (List.mem_of_getElem? hc)

theorem dropInfix?_eq_none_of_not_mem {c : Char} {text : List Char} (h : c ∉ text)
    (separator : List Char) : text.dropInfix? (c :: separator) = none := by
  refine Option.eq_none_iff_forall_ne_some.2 fun (before, after) hsome => ?_
  obtain ⟨⟨found, rfl, hfound⟩, -⟩ := List.dropInfix?_eq_some_iff.1 hsome
  obtain rfl : found = c :: separator := by simpa using hfound
  simp at h

/-! ### The last occurrence -/

theorem splitLast?_append_left {separator text before after : List Char}
    (h : splitLast? separator text = some (before, after)) (front : List Char) :
    splitLast? separator (front ++ text) = some (front ++ before, after) := by
  induction front with
  | nil => exact h
  | cons c front ih => simp only [List.cons_append, splitLast?, ih]

theorem eq_of_splitLast? {separator text before after : List Char}
    (h : splitLast? separator text = some (before, after)) :
    text = before ++ separator ++ after := by
  induction text generalizing before with
  | nil => cases h
  | cons c cs ih =>
    rw [splitLast?] at h
    cases hrest : splitLast? separator cs with
    | some split =>
      rw [hrest] at h
      cases h
      rw [ih hrest]
      rfl
    | none =>
      rw [hrest] at h
      obtain ⟨rest, hdropped, heq⟩ := Option.map_eq_some_iff.1 h
      cases heq
      obtain ⟨first, hfirst, hseparator⟩ := List.dropPrefix?_eq_some_iff.1 hdropped
      rw [hfirst, eq_of_beq hseparator]
      rfl

/-- Characters that cannot begin the separator may be passed over. -/
theorem splitLast?_append_eq_none {c : Char} {front : List Char} (h : c ∉ front)
    {separator text : List Char} (htext : splitLast? (c :: separator) text = none) :
    splitLast? (c :: separator) (front ++ text) = none := by
  induction front with
  | nil => exact htext
  | cons d front ih =>
    have hd : (d == c) = false := by
      rw [beq_eq_false_iff_ne]
      exact fun hdc => h (hdc ▸ List.mem_cons_self)
    simp [splitLast?, ih fun hmem => h (List.mem_cons_of_mem d hmem), List.dropPrefix?, hd]

theorem splitLast?_eq_none_of_not_mem {c : Char} {text : List Char} (h : c ∉ text)
    (separator : List Char) : splitLast? (c :: separator) text = none := by
  have hnone : splitLast? (c :: separator) (text ++ []) = none :=
    splitLast?_append_eq_none h rfl
  rwa [List.append_nil] at hnone

/-- The last occurrence is the one after which the separator is not to be found. -/
theorem splitLast?_eq_some {c : Char} {separator after : List Char}
    (h : splitLast? (c :: separator) (separator ++ after) = none) (before : List Char) :
    splitLast? (c :: separator) (before ++ c :: separator ++ after) = some (before, after) := by
  have hsplit : splitLast? (c :: separator) (c :: separator ++ after) = some ([], after) := by
    rw [List.cons_append, splitLast?, h, ← List.cons_append, dropPrefix?_append]
    rfl
  simpa using splitLast?_append_left hsplit before

/-! ### Parts -/

theorem parts_of_not_mem {c : Char} {text : String} (h : c ∉ text.toList) :
    parts c text = [text] := by
  rw [parts, List.splitOn_eq_singleton h, List.map_singleton, String.ofList_toList]

/-- The first part ends with the first separator. -/
theorem parts_append {c : Char} {first separator : String} (h : c ∉ first.toList)
    (hseparator : separator.toList = [c]) (rest : String) :
    parts c (first ++ separator ++ rest) = first :: parts c rest := by
  rw [parts, String.toList_append, String.toList_append, hseparator, List.append_assoc,
    List.singleton_append, List.splitOn_append_cons_self_of_not_mem h, List.map_cons,
    String.ofList_toList]
  rfl

/-- At a separator the parts before it and the parts after it are taken on their own. -/
theorem parts_append_separator {c : Char} {separator : String} (hseparator : separator.toList = [c])
    (front rest : String) : parts c (front ++ separator ++ rest) = parts c front ++ parts c rest := by
  rw [parts, String.toList_append, String.toList_append, hseparator, List.append_assoc,
    List.singleton_append, List.splitOn_append_cons_self, List.map_append]
  rfl

/-- A list that was written item by item is read item by item. -/
theorem mapM_map_eq_some {α β γ : Type} {write : α → β} {read : β → Option γ} {value : α → γ}
    {items : List α} (h : ∀ a ∈ items, read (write a) = some (value a)) :
    (items.map write).mapM read = some (items.map value) := by
  induction items with
  | nil => rfl
  | cons a items ih =>
    rw [List.map_cons, List.mapM_cons, h a List.mem_cons_self,
      ih fun b hb => h b (List.mem_cons_of_mem a hb)]
    rfl

theorem mapM_map_eq_self {α β : Type} {write : α → β} {read : β → Option α} {items : List α}
    (h : ∀ a ∈ items, read (write a) = some a) : (items.map write).mapM read = some items :=
  (mapM_map_eq_some h).trans (by rw [List.map_id'])

/-! ### A doubled character -/

/-- Where a text has a doubled character before a last part without it, any other place that
has it doubled lies further to the front. -/
theorem eq_or_exists_middle {c : Char} {front last before after : List Char} (hlast : c ∉ last)
    (hfront : front.getLast? ≠ some c) (h : front ++ [c, c] ++ last = before ++ [c, c] ++ after) :
    (before = front ∧ after = last) ∨
      ∃ middle, front = before ++ [c, c] ++ middle ∧ after = middle ++ [c, c] ++ last := by
  rw [List.append_assoc, List.append_assoc, List.append_eq_append_iff] at h
  rcases h with ⟨more, rfl, hmore⟩ | ⟨more, rfl, hmore⟩
  · -- the other place begins where the front ends, or later
    match more, hmore with
    | [], hmore => exact Or.inl ⟨List.append_nil _, by simpa using hmore.symm⟩
    | [_], hmore =>
      obtain ⟨-, hlast'⟩ : _ ∧ last = c :: after := by simpa using hmore
      exact absurd (hlast' ▸ List.mem_cons_self) hlast
    | _ :: _ :: more, hmore =>
      obtain ⟨-, -, rfl⟩ : _ ∧ _ ∧ last = more ++ c :: c :: after := by simpa using hmore
      exact absurd (by simp) hlast
  · match more, hmore with
    | [], hmore => exact Or.inl ⟨(List.append_nil _).symm, by simpa using hmore⟩
    | [_], hmore =>
      obtain ⟨rfl, -⟩ : c = _ ∧ _ := by simpa using hmore
      exact absurd (by simp) hfront
    | _ :: _ :: more, hmore =>
      obtain ⟨rfl, rfl, rfl⟩ : c = _ ∧ c = _ ∧ after = more ++ c :: c :: last := by
        simpa using hmore
      exact Or.inr ⟨more, by simp, by simp⟩

/-! ### Joined texts -/

/-- A joined text is spelt with what was joined and what was put between. -/
theorem mem_intercalate {separator : String} {texts : List String} {c : Char}
    (h : c ∈ (String.intercalate separator texts).toList) :
    c ∈ separator.toList ∨ ∃ text ∈ texts, c ∈ text.toList := by
  induction texts with
  | nil => cases h
  | cons text texts ih =>
    cases texts with
    | nil => exact Or.inr ⟨text, List.mem_cons_self, by simpa using h⟩
    | cons next texts =>
      rw [String.intercalate_cons_cons, String.toList_append, String.toList_append,
        List.mem_append, List.mem_append] at h
      rcases h with (h | h) | h
      · exact Or.inr ⟨text, List.mem_cons_self, h⟩
      · exact Or.inl h
      · exact (ih h).imp_right fun ⟨other, hother, hc⟩ =>
          ⟨other, List.mem_cons_of_mem text hother, hc⟩

/-- Joined texts are taken apart again, each with the gap that stands before it. -/
theorem parts_intercalate {c : Char} {separator gap : String} (hseparator : separator.toList = [c])
    (hgap : c ∉ gap.toList) {texts : List String} (hne : texts ≠ [])
    (htexts : ∀ text ∈ texts, c ∉ text.toList) :
    parts c (gap ++ String.intercalate (separator ++ gap) texts) = texts.map (gap ++ ·) := by
  induction texts with
  | nil => exact absurd rfl hne
  | cons text texts ih =>
    obtain ⟨htext, hrest⟩ := List.forall_mem_cons.1 htexts
    have hfirst : c ∉ (gap ++ text).toList := by simp [hgap, htext]
    cases texts with
    | nil =>
      rw [String.intercalate_singleton, parts_of_not_mem hfirst]
      rfl
    | cons next texts =>
      have hjoined : gap ++ String.intercalate (separator ++ gap) (text :: next :: texts) =
          gap ++ text ++ separator ++
            (gap ++ String.intercalate (separator ++ gap) (next :: texts)) := by
        rw [String.intercalate_cons_cons]
        simp only [String.append_assoc]
      rw [hjoined, parts_append hfirst hseparator, ih (List.cons_ne_nil _ _) hrest]
      rfl

end VisitorGen.Text
