import Mathlib.Tactic.SplitIfs
import VisitorGen.Proofs.Integrity.Checklist
import VisitorGen.Proofs.Schema.RoundTrip

/-! Reports stand on one line and say one thing. A name is quoted wherever it is reported, and
quoted text ends where it ends, whatever it is spelt like and whatever stands after it
(`quotedChars_append_inj`). What stands between the names holds no quote, so a report can be taken
apart into its wording in one way only (`Wording.chars_inj`), and the wording tells the defect.
`reports_unambiguous` says it of what schemas are refused with. -/
namespace VisitorGen
open Json (quote quotedChar quotedChars hexQuad Decoder)

/-! ### Quoted names -/

namespace Json

theorem printable_hexQuad {n : Nat} {c : Char} (h : c ∈ hexQuad n) : 0x20 ≤ c.toNat := by
  have hdigit : ∀ m < 16, 0x20 ≤ (Nat.digitChar m).toNat := by decide
  simp only [hexQuad, List.mem_cons, List.not_mem_nil, or_false] at h
  rcases h with rfl | rfl | rfl | rfl <;> exact hdigit _ (Nat.mod_lt _ (by decide))

theorem printable_quotedChar {c d : Char} (h : d ∈ quotedChar c) : 0x20 ≤ d.toNat := by
  have hslash : 0x20 ≤ '\\'.toNat := by decide
  have hescape {letter : Char} (hletter : 0x20 ≤ letter.toNat) :
      ∀ d ∈ ['\\', letter], 0x20 ≤ d.toNat :=
    List.forall_mem_cons.2 ⟨hslash, List.forall_mem_singleton.2 hletter⟩
  unfold quotedChar at h
  split_ifs at h
  -- the seven escapes of two characters
  iterate 7 exact hescape (by decide) d h
  · rcases List.mem_cons.1 h with rfl | h
    · exact hslash
    rcases List.mem_cons.1 h with rfl | h
    · decide
    · exact printable_hexQuad h
  · obtain rfl := List.mem_singleton.1 h
    omega

theorem printable_quotedChars {cs : List Char} {c : Char} (h : c ∈ quotedChars cs) :
    0x20 ≤ c.toNat := by
  rw [quotedChars, List.mem_append, List.mem_cons, List.mem_flatMap, List.mem_singleton] at h
  rcases h with (rfl | ⟨d, -, hc⟩) | rfl
  · decide
  · exact printable_quotedChar hc
  · decide

/-- Where quoted text ends does not depend on what stands after it. -/
theorem quotedChars_append_inj {a b : String} {rest rest' : List Char}
    (h : quotedChars a.toList ++ rest = quotedChars b.toList ++ rest') : a = b ∧ rest = rest' := by
  rw [quotedChars_append, quotedChars_append] at h
  have hread := string_quoted a rest
  rw [(List.cons.inj h).2, string_quoted] at hread
  obtain ⟨hname, hrest⟩ := Prod.mk.inj (Except.ok.inj hread)
  exact ⟨hname.symm, hrest.symm⟩

theorem quote_injective : Function.Injective quote := by
  intro a b h
  have hchars : quotedChars a.toList ++ [] = quotedChars b.toList ++ [] :=
    congrArg (· ++ []) (String.ofList_injective h)
  exact (quotedChars_append_inj hchars).1

theorem read_quote (text : String) : Decoder.string.read (quote text) = .ok text :=
  Decoder.inverts_string.read_compact (Nat.zero_le _) text

end Json

/-! ### Wordings -/

/-- A report taken apart: how it opens, and the names in it, each with the words that follow. -/
@[ext]
structure Wording where
  opening : String
  names : List (String × String)

namespace Wording

def text (w : Wording) : String :=
  w.names.foldl (fun before (name, words) => before ++ quote name ++ words) w.opening

def chars (w : Wording) : List Char :=
  w.opening.toList ++ w.names.flatMap fun (name, words) => quotedChars name.toList ++ words.toList

theorem toList_text (w : Wording) : w.text.toList = w.chars := by
  obtain ⟨opening, names⟩ := w
  simp only [text, chars]
  induction names generalizing opening with
  | nil => simp
  | cons named names ih =>
    have hnamed : (opening ++ quote named.1 ++ named.2).toList =
        opening.toList ++ (quotedChars named.1.toList ++ named.2.toList) := by simp [quote]
    rw [List.foldl_cons, ih, hnamed, List.flatMap_cons, List.append_assoc]

/-- Words in which nothing could be taken for a quoted name or for the end of the line. -/
def PlainWords (words : String) : Prop := ∀ c ∈ words.toList, 0x20 ≤ c.toNat ∧ c ≠ '"'

instance (words : String) : Decidable (PlainWords words) :=
  List.decidableBAll _ _

theorem PlainWords.not_mem {words : String} (h : PlainWords words) : '"' ∉ words.toList :=
  fun hmem => (h '"' hmem).2 rfl

/-- Apart from the names there are plain words only. -/
def Plain (w : Wording) : Prop := PlainWords w.opening ∧ ∀ named ∈ w.names, PlainWords named.2

theorem printable_chars {w : Wording} (h : w.Plain) {c : Char} (hc : c ∈ w.chars) :
    0x20 ≤ c.toNat := by
  rcases List.mem_append.1 hc with hc | hc
  · exact (h.1 c hc).1
  · obtain ⟨named, hnamed, hc⟩ := List.mem_flatMap.1 hc
    rcases List.mem_append.1 hc with hc | hc
    · exact Json.printable_quotedChars hc
    · exact (h.2 named hnamed c hc).1

/-- Plain words end at the first quote. -/
theorem words_append_inj {words words' rest rest' : List Char} (h : '"' ∉ words) (h' : '"' ∉ words')
    (hrest : ∀ c ∈ rest.head?, c = '"') (hrest' : ∀ c ∈ rest'.head?, c = '"')
    (heq : words ++ rest = words' ++ rest') : words = words' ∧ rest = rest' := by
  induction words generalizing words' with
  | nil =>
    cases words' with
    | nil => exact ⟨rfl, heq⟩
    | cons c words' =>
      have hc : c = '"' := hrest c (by rw [List.nil_append] at heq; rw [heq]; rfl)
      exact absurd (hc ▸ List.mem_cons_self) h'
  | cons c words ih =>
    cases words' with
    | nil =>
      have hc : c = '"' := hrest' c (by rw [List.nil_append] at heq; rw [← heq]; rfl)
      exact absurd (hc ▸ List.mem_cons_self) h
    | cons c' words' =>
      obtain ⟨rfl, htail⟩ := List.cons.inj heq
      rw [List.mem_cons, not_or] at h h'
      obtain ⟨rfl, hrests⟩ := ih h.2 h'.2 htail
      exact ⟨rfl, hrests⟩

theorem head?_names (names : List (String × String)) :
    ∀ c ∈ (names.flatMap fun (name, words) => quotedChars name.toList ++ words.toList).head?,
      c = '"' := by
  cases names with
  | nil => nofun
  | cons named names =>
    intro c hc
    exact (Option.some.inj hc).symm

theorem names_inj {names names' : List (String × String)} (h : ∀ named ∈ names, PlainWords named.2)
    (h' : ∀ named ∈ names', PlainWords named.2)
    (heq : (names.flatMap fun (name, words) => quotedChars name.toList ++ words.toList) =
      names'.flatMap fun (name, words) => quotedChars name.toList ++ words.toList) :
    names = names' := by
  induction names generalizing names' with
  | nil =>
    cases names' with
    | nil => rfl
    | cons named' names' => cases heq
  | cons named names ih =>
    cases names' with
    | nil => cases heq
    | cons named' names' =>
      obtain ⟨hnamed, hnames⟩ := List.forall_mem_cons.1 h
      obtain ⟨hnamed', hnames'⟩ := List.forall_mem_cons.1 h'
      rw [List.flatMap_cons, List.flatMap_cons, List.append_assoc, List.append_assoc] at heq
      obtain ⟨hname, heq⟩ := Json.quotedChars_append_inj heq
      obtain ⟨hwords, heq⟩ := words_append_inj hnamed.not_mem hnamed'.not_mem (head?_names names)
        (head?_names names') heq
      rw [ih hnames hnames' heq, Prod.ext hname (String.toList_injective hwords)]

/-- A text is a report of one wording only. -/
theorem chars_inj {w w' : Wording} (h : w.Plain) (h' : w'.Plain) (heq : w.chars = w'.chars) :
    w = w' := by
  obtain ⟨hopening, hnamed⟩ := words_append_inj h.1.not_mem h'.1.not_mem (head?_names w.names)
    (head?_names w'.names) heq
  exact Wording.ext (String.toList_injective hopening) (names_inj h.2 h'.2 hnamed)

end Wording

/-! ### Defects -/

namespace Defect

def wording : Defect → Wording
  | repeatedAbstractKind name => ⟨"The abstract kind ", [(name, " is defined twice")]⟩
  | kindNotIdentifier name => ⟨"The kind name ", [(name, " is not a valid identifier")]⟩
  | kindReserved name => ⟨"The kind name ", [(name, " is reserved")]⟩
  | unknownParent parent name =>
    ⟨"The parent ", [(parent, " of "), (name, " is not an abstract kind in the schema")]⟩
  | lateParent parent name =>
    ⟨"The parent ", [(parent, " of "), (name, " must be declared before it")]⟩
  | repeatedInScope name => ⟨"The kind ", [(name, " is defined twice in the same scope")]⟩
  | namedAfterParent name => ⟨"The kind ", [(name, " cannot share the name of its parent")]⟩
  | fieldNotIdentifier field kind =>
    ⟨"The field name ", [(field, " in "), (kind, " is not a valid identifier")]⟩
  | fieldReserved field kind => ⟨"The field name ", [(field, " in "), (kind, " is reserved")]⟩
  | fieldNamedAfterKind field kind =>
    ⟨"The field ", [(field, " in "), (kind, " cannot share the name of its kind")]⟩
  | fieldWithoutType field kind => ⟨"The field ", [(field, " in "), (kind, " has no type")]⟩
  | repeatedField field kind => ⟨"The field ", [(field, " is defined twice in "), (kind, "")]⟩

theorem message_eq_text (d : Defect) : d.message = d.wording.text := by
  cases d
  case repeatedField => exact String.append_empty.symm
  all_goals rfl

theorem toList_message (d : Defect) : d.message.toList = d.wording.chars := by
  rw [message_eq_text, Wording.toList_text]

theorem plain_wording (d : Defect) : d.wording.Plain := by
  cases d
  all_goals
    simp only [Wording.Plain, wording, List.forall_mem_cons]
    decide +kernel

/-- The defect that is reported in these words. -/
def ofWording? : Wording → Option Defect
  | ⟨"The abstract kind ", [(name, " is defined twice")]⟩ => some (repeatedAbstractKind name)
  | ⟨"The kind name ", [(name, " is not a valid identifier")]⟩ => some (kindNotIdentifier name)
  | ⟨"The kind name ", [(name, " is reserved")]⟩ => some (kindReserved name)
  | ⟨"The parent ", [(parent, " of "), (name, " is not an abstract kind in the schema")]⟩ =>
    some (unknownParent parent name)
  | ⟨"The parent ", [(parent, " of "), (name, " must be declared before it")]⟩ =>
    some (lateParent parent name)
  | ⟨"The kind ", [(name, " is defined twice in the same scope")]⟩ => some (repeatedInScope name)
  | ⟨"The kind ", [(name, " cannot share the name of its parent")]⟩ => some (namedAfterParent name)
  | ⟨"The field name ", [(field, " in "), (kind, " is not a valid identifier")]⟩ =>
    some (fieldNotIdentifier field kind)
  | ⟨"The field name ", [(field, " in "), (kind, " is reserved")]⟩ =>
    some (fieldReserved field kind)
  | ⟨"The field ", [(field, " in "), (kind, " cannot share the name of its kind")]⟩ =>
    some (fieldNamedAfterKind field kind)
  | ⟨"The field ", [(field, " in "), (kind, " has no type")]⟩ => some (fieldWithoutType field kind)
  | ⟨"The field ", [(field, " is defined twice in "), (kind, "")]⟩ =>
    some (repeatedField field kind)
  | _ => none

theorem ofWording?_wording (d : Defect) : ofWording? d.wording = some d := by
  cases d <;> rfl

theorem wording_injective : Function.Injective wording := by
  intro d d' h
  have hsome := ofWording?_wording d
  rw [h, ofWording?_wording] at hsome
  exact (Option.some.inj hsome).symm

theorem message_injective : Function.Injective message := by
  intro d d' h
  have hchars : d.wording.chars = d'.wording.chars := by
    rw [← toList_message, ← toList_message, h]
  exact wording_injective (Wording.chars_inj (plain_wording d) (plain_wording d') hchars)

theorem printable_message (d : Defect) {c : Char} (h : c ∈ d.message.toList) : 0x20 ≤ c.toNat := by
  rw [toList_message] at h
  exact Wording.printable_chars (plain_wording d) h

end Defect

theorem Failure.toList_message_defect (d : Defect) :
    (Failure.defect d).message.toList = "Verifier error: ".toList ++ d.message.toList :=
  String.toList_append

/-- **Reports are unambiguous.** The message of a refused schema has no line end and no other
control character in it, and schemas that are refused with one message have the same defect: it
fails the same check, and the same names are reported. A message gives back the defect and the
names in it, and quoted text the text in it, whatever characters they are of. -/
theorem Schema.reports_unambiguous :
    (∀ (s : Schema) (f : Failure), s.verify = .error f →
      ∀ c ∈ f.message.toList, 0x20 ≤ c.toNat) ∧
    (∀ (s s' : Schema) (f f' : Failure), s.verify = .error f → s'.verify = .error f' →
      f.message = f'.message → ∃ d, s.defect? = some d ∧ s'.defect? = some d) ∧
    Function.Injective Defect.message ∧
    Function.Injective quote ∧
    ∀ text, Decoder.string.read (quote text) = .ok text := by
  refine ⟨fun s f hs c hc => ?_, fun s s' f f' hs hs' hmessage => ?_, Defect.message_injective,
    Json.quote_injective, Json.read_quote⟩
  · obtain ⟨d, -, rfl⟩ := verify_eq_error_iff.1 hs
    rw [Failure.toList_message_defect, List.mem_append] at hc
    rcases hc with hc | hc
    · exact (by decide +kernel : Wording.PlainWords "Verifier error: ") c hc |>.1
    · exact d.printable_message hc
  · obtain ⟨d, hd, rfl⟩ := verify_eq_error_iff.1 hs
    obtain ⟨d', hd', rfl⟩ := verify_eq_error_iff.1 hs'
    obtain rfl : d = d' := by
      refine Defect.message_injective (String.toList_injective ?_)
      have hchars := congrArg String.toList hmessage
      rw [Failure.toList_message_defect, Failure.toList_message_defect] at hchars
      exact List.append_cancel_left hchars
    exact ⟨d, hd, hd'⟩

/-- A kind whose name is spelt like the end of another report and a line after it. -/
def forgedKind : Schema := ⟨[], [.ofAbstract ⟨"A\" is reserved\n", none⟩]⟩

/-- The same with a sound kind after it. -/
def forgedKindFirst : Schema := ⟨[], forgedKind.entries ++ [.ofAbstract ⟨"B", none⟩]⟩

theorem Schema.reports_unambiguous_forged :
    forgedKind.verify = .error (.defect (.kindNotIdentifier "A\" is reserved\n")) ∧
    forgedKindFirst.verify = .error (.defect (.kindNotIdentifier "A\" is reserved\n")) ∧
    (∀ c ∈ (Failure.defect (.kindNotIdentifier "A\" is reserved\n")).message.toList,
      0x20 ≤ c.toNat) ∧
    ∃ d, forgedKind.defect? = some d ∧ forgedKindFirst.defect? = some d := by
  have hkind : forgedKind.verify = .error (.defect (.kindNotIdentifier "A\" is reserved\n")) :=
    verify_eq_error_iff.2 ⟨_, by decide +kernel, rfl⟩
  have hfirst : forgedKindFirst.verify =
      .error (.defect (.kindNotIdentifier "A\" is reserved\n")) :=
    verify_eq_error_iff.2 ⟨_, by decide +kernel, rfl⟩
  exact ⟨hkind, hfirst, reports_unambiguous.1 _ _ hkind,
    reports_unambiguous.2.1 _ _ _ _ hkind hfirst rfl⟩

end VisitorGen
