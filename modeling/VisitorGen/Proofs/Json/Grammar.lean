import VisitorGen.Json.Reader

/-! Well-formed texts: the grammar of RFC 8259, written down apart from the reader. A text is
written for a value with any white space between its tokens and any spelling of its strings,
escapes included as long as surrogates come in pairs. A text is `Formed` to a depth: so many
brackets are open at once at most.

A numeral may stand for no number that the reader has. In a text that is `Written` there are of
the numbers only the integers that fit 63 bits, and so it can always be read. -/
namespace VisitorGen.Json

/-! ### White space -/

/-- White space, which may stand before and after every token. -/
def Gap (text : List Char) : Prop := ∀ c ∈ text, isSpace c = true

/-- A text with white space around it. -/
inductive Spaced {α : Type} (item : List Char → α → Prop) : List Char → α → Prop where
  | around {before text after : List Char} {a : α} (hbefore : Gap before) (hafter : Gap after)
      (hitem : item text a) : Spaced item (before ++ text ++ after) a

theorem Spaced.bare {α : Type} {item : List Char → α → Prop} {text : List Char} {a : α}
    (h : item text a) : Spaced item text a := by
  have hspaced : Spaced item ([] ++ text ++ []) a := .around nofun nofun h
  rwa [List.nil_append, List.append_nil] at hspaced

/-! ### Strings -/

/-- The number that four hexadecimal digits spell. -/
def hexNumber? : List Char → Option Nat
  | [a, b, c, d] => do
    let a ← hexValue? a
    let b ← hexValue? b
    let c ← hexValue? c
    let d ← hexValue? d
    return ((a * 16 + b) * 16 + c) * 16 + d
  | _ => none

/-- The ways to write a character between quotes. -/
inductive CharWritten : List Char → Char → Prop where
  | plain {c : Char} (hcontrol : 0x20 ≤ c.toNat) (hquote : c ≠ '"') (hslash : c ≠ '\\') :
      CharWritten [c] c
  | short {letter c : Char} (hescape : shortEscape? letter = some c) :
      CharWritten ['\\', letter] c
  | unicode {digits : List Char} {n : Nat} (hdigits : hexNumber? digits = some n)
      (hlead : isLeadSurrogate n = false) (htrail : isTrailSurrogate n = false) :
      CharWritten ('\\' :: 'u' :: digits) (Char.ofNat n)
  | pair {digits digits' : List Char} {lead trail : Nat} (hdigits : hexNumber? digits = some lead)
      (hdigits' : hexNumber? digits' = some trail) (hlead : isLeadSurrogate lead = true)
      (htrail : isTrailSurrogate trail = true) :
      CharWritten ('\\' :: 'u' :: digits ++ '\\' :: 'u' :: digits') (surrogatePair lead trail)

/-- The characters of a string, each in one of its ways. -/
inductive CharsWritten : List Char → List Char → Prop where
  | nil : CharsWritten [] []
  | cons {spelling more cs : List Char} {c : Char} (hc : CharWritten spelling c)
      (hmore : CharsWritten more cs) : CharsWritten (spelling ++ more) (c :: cs)

/-- Characters that need no escape stand for themselves. -/
theorem CharsWritten.plain {cs : List Char}
    (h : ∀ c ∈ cs, 0x20 ≤ c.toNat ∧ c ≠ '"' ∧ c ≠ '\\') : CharsWritten cs cs := by
  induction cs with
  | nil => exact .nil
  | cons c cs ih =>
    obtain ⟨hc, hcs⟩ := List.forall_mem_cons.1 h
    exact .cons (.plain hc.1 hc.2.1 hc.2.2) (ih hcs)

inductive StringWritten : List Char → String → Prop where
  | quoted {body cs : List Char} (hbody : CharsWritten body cs) :
      StringWritten ('"' :: body ++ ['"']) (String.ofList cs)

theorem StringWritten.plain {s : String}
    (h : ∀ c ∈ s.toList, 0x20 ≤ c.toNat ∧ c ≠ '"' ∧ c ≠ '\\') :
    StringWritten ('"' :: s.toList ++ ['"']) s := by
  have hquoted := StringWritten.quoted (CharsWritten.plain h)
  rwa [String.ofList_toList] at hquoted

/-! ### Numbers -/

/-- The number that decimal digits spell. -/
def decimalNumber (digits : List Char) : Nat := digits.foldl (fun n c => n * 10 + digitValue c) 0

/-- A lone zero, or digits of which the first is not zero. -/
structure WholeWritten (text : List Char) : Prop where
  digits : ∀ c ∈ text, isDigit c = true
  nonempty : text ≠ []
  unpadded : text.head? = some '0' → text = ['0']

/-- One digit or more. -/
structure DigitsWritten (text : List Char) : Prop where
  digits : ∀ c ∈ text, isDigit c = true
  nonempty : text ≠ []

inductive FractionWritten : List Char → List Char → Prop where
  | none : FractionWritten [] []
  | point {digits : List Char} (hdigits : DigitsWritten digits) :
      FractionWritten ('.' :: digits) digits

inductive SignWritten : List Char → Bool → Prop where
  | none : SignWritten [] false
  | plus : SignWritten ['+'] false
  | minus : SignWritten ['-'] true

inductive ExponentWritten : List Char → Option Exponent → Prop where
  | none : ExponentWritten [] none
  | letter {c : Char} {sign digits : List Char} {negative : Bool} (hletter : c = 'e' ∨ c = 'E')
      (hsign : SignWritten sign negative) (hdigits : DigitsWritten digits) :
      ExponentWritten (c :: (sign ++ digits)) (some ⟨negative, digits⟩)

/-- A numeral after its minus sign, if it has one. -/
inductive UnsignedWritten (negative : Bool) : List Char → Numeral → Prop where
  | parts {whole fractionText fraction exponentText : List Char} {exponent? : Option Exponent}
      (hwhole : WholeWritten whole) (hfraction : FractionWritten fractionText fraction)
      (hexponent : ExponentWritten exponentText exponent?) :
      UnsignedWritten negative (whole ++ (fractionText ++ exponentText))
        ⟨negative, whole, fraction, exponent?⟩

inductive NumeralWritten : List Char → Numeral → Prop where
  | positive {text : List Char} {numeral : Numeral} (h : UnsignedWritten false text numeral) :
      NumeralWritten text numeral
  | negative {text : List Char} {numeral : Numeral} (h : UnsignedWritten true text numeral) :
      NumeralWritten ('-' :: text) numeral

/-- The ways to write an integer. Zero with a minus sign is kept as a double. -/
inductive IntegerWritten : List Char → Number → Prop where
  | natural {digits : List Char} (hwhole : WholeWritten digits)
      (hsmall : decimalNumber digits < Nat.pow 2 63) :
      IntegerWritten digits (.natural (decimalNumber digits))
  | negative {digits : List Char} (hwhole : WholeWritten digits)
      (hsmall : decimalNumber digits < Nat.pow 2 63) (hpos : 0 < decimalNumber digits) :
      IntegerWritten ('-' :: digits) (.negative (decimalNumber digits))
  | minusZero : IntegerWritten ['-', '0'] (Numeral.signed true (0 : Nat).toUInt64.toFloat)

/-! ### Values -/

inductive ScalarWritten : List Char → Value → Prop where
  | null : ScalarWritten ['n', 'u', 'l', 'l'] .null
  | boolTrue : ScalarWritten ['t', 'r', 'u', 'e'] (.boolean true)
  | boolFalse : ScalarWritten ['f', 'a', 'l', 's', 'e'] (.boolean false)
  | string {text : List Char} {s : String} (hstring : StringWritten text s) :
      ScalarWritten text (.string s)
  | number {text : List Char} {n : Number} (hnumber : IntegerWritten text n) :
      ScalarWritten text (.number n)

/-- One item or more, with commas between them. -/
inductive Commas {α : Type} (item : List Char → α → Prop) : List Char → List α → Prop where
  | last {text : List Char} {a : α} (hitem : item text a) : Commas item text [a]
  | more {text rest : List Char} {a : α} {as : List α} (hitem : item text a)
      (hmore : Commas item rest as) : Commas item (text ++ ',' :: rest) (a :: as)

inductive MemberWritten (item : List Char → Value → Prop) : List Char → String × Value → Prop where
  | named {keyText valueText : List Char} {key : String} {v : Value}
      (hkey : Spaced StringWritten keyText key) (hvalue : Spaced item valueText v) :
      MemberWritten item (keyText ++ ':' :: valueText) (key, v)

section

variable {α : Type} {text : List Char}

theorem Spaced.imp {item item' : List Char → α → Prop} {a : α} (h : Spaced item text a)
    (himp : ∀ text, item text a → item' text a) : Spaced item' text a := by
  obtain ⟨hbefore, hafter, hitem⟩ := h
  exact .around hbefore hafter (himp _ hitem)

theorem Commas.imp {item item' : List Char → α → Prop} {as : List α} (h : Commas item text as)
    (himp : ∀ a ∈ as, ∀ text, item text a → item' text a) : Commas item' text as := by
  induction h with
  | last hitem => exact .last (himp _ List.mem_cons_self _ hitem)
  | more hitem _ ih =>
    obtain ⟨hfirst, hrest⟩ := List.forall_mem_cons.1 himp
    exact .more (hfirst _ hitem) (ih hrest)

theorem MemberWritten.imp {item item' : List Char → Value → Prop} {member : String × Value}
    (h : MemberWritten item text member) (himp : ∀ text, item text member.2 → item' text member.2) :
    MemberWritten item' text member := by
  obtain ⟨hkey, hvalue⟩ := h
  exact .named hkey (hvalue.imp himp)

end

/-- Lists and objects of given items. -/
inductive NestedWritten (item : List Char → Value → Prop) : List Char → Value → Prop where
  | emptyArray {gap : List Char} (hgap : Gap gap) :
      NestedWritten item ('[' :: gap ++ [']']) (.array [])
  | array {text : List Char} {items : List Value} (hitems : Commas (Spaced item) text items) :
      NestedWritten item ('[' :: text ++ [']']) (.array items)
  | emptyObject {gap : List Char} (hgap : Gap gap) :
      NestedWritten item ('\x7b' :: gap ++ ['\x7d']) (.object [])
  | object {text : List Char} {members : List (String × Value)}
      (hmembers : Commas (MemberWritten item) text members) :
      NestedWritten item ('\x7b' :: text ++ ['\x7d']) (.object members)

/-- The texts of a value in which at most so many brackets are open at once. -/
def Written : (depth : Nat) → List Char → Value → Prop
  | 0, text, v => ScalarWritten text v
  | depth + 1, text, v => ScalarWritten text v ∨ NestedWritten (Written depth) text v

/-- The ways to write a value without brackets, numbers of all forms included. A numeral that is
out of range has no value, and is taken to be written for any number. -/
inductive ScalarFormed : List Char → Value → Prop where
  | written {text : List Char} {v : Value} (h : ScalarWritten text v) : ScalarFormed text v
  | numeral {text : List Char} {numeral : Numeral} {n : Number}
      (hnumeral : NumeralWritten text numeral) (hvalue : ∀ m, numeral.value = .ok m → m = n) :
      ScalarFormed text (.number n)

/-- The well-formed texts of a value in which at most so many brackets are open at once. -/
def Formed : (depth : Nat) → List Char → Value → Prop
  | 0, text, v => ScalarFormed text v
  | depth + 1, text, v => ScalarFormed text v ∨ NestedWritten (Formed depth) text v

end VisitorGen.Json
