import Mathlib.Data.List.Basic
import VisitorGen.Proofs.Name.Keywords

/-! The normal form of names. Lower case leaves no ASCII capital anywhere
(`not_isUpper_of_mem_lowerAfter`), so nothing is left to set apart in what snake case has made.

`snakeCase_reaches_normal_form`: snake case sets the words of any text apart and lowers it, and
the parameter that is named after an identifier is a name that neither snake case nor the escape
of keywords changes again. Of lower case only two things are used: it goes letter by letter on
ASCII texts (`lowerAfter_of_ascii`), and it leaves no ASCII capital. -/
namespace VisitorGen.Name

/-! ### Lower case -/

theorem not_isUpper_of_lt {c : Char} (h : 0x5A < c.toNat) : c.isUpper = false :=
  decide_eq_false fun hc => absurd (UInt32.le_iff_toNat_le.1 hc.2) (Nat.not_le.2 h)

/-- No run of characters has its lower case among the ASCII capitals. -/
theorem lt_of_mem_caseRuns : ∀ r ∈ Text.caseRuns, 0x5A < (r.first : Int) + r.offset := by
  decide +kernel

theorem not_isUpper_of_covers {r : Text.CaseRun} (hr : r ∈ Text.caseRuns) {n : Nat}
    (hn : r.covers n = true) :
    (Char.ofNat ((n : Int) + r.offset).toNat).isUpper = false := by
  -- The whole run moves by one offset, so the lower case of its first character bounds the others.
  have hfirst : r.first ≤ n := by
    simp only [Text.CaseRun.covers, Bool.and_eq_true, decide_eq_true_iff] at hn
    exact hn.1.1
  have hlt := lt_of_mem_caseRuns r hr
  by_cases hvalid : ((n : Int) + r.offset).toNat.isValidChar
  · rw [Char.ofNat, dif_pos hvalid]
    exact not_isUpper_of_lt (by show _ < ((n : Int) + r.offset).toNat; omega)
  · rw [Char.ofNat, dif_neg hvalid]
    rfl

theorem not_isUpper_toLower {c : Char} (h : c.toNat < 0x80) : c.toLower.isUpper = false := by
  have hall : ∀ n < 0x80, (Char.ofNat n).toLower.isUpper = false := by decide
  have hc := hall c.toNat h
  rwa [Char.ofNat_toNat] at hc

theorem not_isUpper_of_mem_lowerChar {c d : Char} (h : d ∈ Text.lowerChar c) :
    d.isUpper = false := by
  unfold Text.lowerChar at h
  split at h
  next hascii => rw [List.mem_singleton.1 h, not_isUpper_toLower hascii]
  next hascii =>
    split at h
    next hdotted =>
      rcases List.mem_pair.1 h with rfl | rfl <;> rfl
    next hdotted =>
      split at h
      next r hr =>
        have hcovers : r.covers c.toNat = true := by simpa using List.find?_some hr
        rw [List.mem_singleton.1 h, not_isUpper_of_covers (List.mem_of_find?_eq_some hr) hcovers]
      next hr =>
        rw [List.mem_singleton.1 h, not_isUpper_of_lt (by omega)]

theorem not_isUpper_lowerSigma (before after : List Char) :
    (Text.lowerSigma before after).isUpper = false := by
  unfold Text.lowerSigma
  split <;> rfl

/-- **Lower case leaves no ASCII capital**, whatever the characters and what stands around them. -/
theorem not_isUpper_of_mem_lowerAfter {before cs : List Char} {c : Char}
    (h : c ∈ Text.lowerAfter before cs) : c.isUpper = false := by
  induction cs generalizing before with
  | nil => cases h
  | cons d cs ih =>
    rw [Text.lowerAfter, List.mem_append] at h
    rcases h with h | h
    · split at h
      · rw [List.mem_singleton.1 h, not_isUpper_lowerSigma]
      · exact not_isUpper_of_mem_lowerChar h
    · exact ih h

theorem not_isUpper_of_mem_snakeCase {name : String} {c : Char} (h : c ∈ (snakeCase name).toList) :
    c.isUpper = false := by
  rw [toList_snakeCase] at h
  exact not_isUpper_of_mem_lowerAfter h

/-! ### What snake case leaves alone -/

/-- Without capitals there is nothing to set apart. -/
theorem separate_of_not_isUpper {cs : List Char} (h : ∀ c ∈ cs, c.isUpper = false) :
    separate cs = cs := by
  cases cs with
  | nil => rfl
  | cons c rest =>
    have hrest : rest.flatMap separated = rest.flatMap ([·]) :=
      List.flatMap_congr fun d hd => separated_of_not_isUpper (h d (List.mem_cons_of_mem c hd))
    rw [separate, hrest, List.flatMap_singleton']

theorem toLower_eq_self {c : Char} (h : c.isUpper = false) : c.toLower = c :=
  dif_neg (of_decide_eq_false h)

/-- An identifier without capitals is in snake case. -/
theorem snakeCase_eq_self {name : String} (h : isIdentifier name = true)
    (hlower : ∀ c ∈ name.toList, c.isUpper = false) : snakeCase name = name := by
  refine String.toList_injective ?_
  rw [toList_snakeCase_of_isIdentifier h, separate_of_not_isUpper hlower]
  refine (List.map_congr_left fun c hc => ?_).trans (List.map_id _)
  exact toLower_eq_self (hlower c hc)

theorem snakeCase_snakeCase {name : String} (h : isIdentifier name = true) :
    snakeCase (snakeCase name) = snakeCase name :=
  snakeCase_eq_self (isIdentifier_snakeCase h) fun _ => not_isUpper_of_mem_snakeCase

theorem not_isUpper_of_mem_parameterName {kind : String} {c : Char}
    (h : c ∈ (parameterName kind).toList) : c.isUpper = false := by
  rcases escapeKeyword_cases (snakeCase kind) with hescape | hescape
  · rw [parameterName, hescape] at h
    exact not_isUpper_of_mem_snakeCase h
  · rw [parameterName, hescape, String.toList_append, List.mem_append] at h
    rcases h with h | h
    · exact not_isUpper_of_mem_snakeCase h
    · obtain rfl : c = '_' := by simpa using h
      rfl

theorem snakeCase_parameterName {kind : String} (h : isIdentifier kind = true) :
    snakeCase (parameterName kind) = parameterName kind :=
  snakeCase_eq_self (isIdentifier_parameterName h) fun _ => not_isUpper_of_mem_parameterName

/-! ### Without underscores -/

def withoutUnderscores (cs : List Char) : List Char := cs.filter (· != '_')

theorem withoutUnderscores_append (cs ds : List Char) :
    withoutUnderscores (cs ++ ds) = withoutUnderscores cs ++ withoutUnderscores ds :=
  List.filter_append ..

theorem withoutUnderscores_flatMap_separated (cs : List Char) :
    withoutUnderscores (cs.flatMap separated) = withoutUnderscores cs := by
  induction cs with
  | nil => rfl
  | cons c cs ih =>
    have hc : withoutUnderscores (separated c) = withoutUnderscores [c] := by
      unfold separated
      split <;> rfl
    rw [List.flatMap_cons, withoutUnderscores_append, hc, ih, ← withoutUnderscores_append,
      List.singleton_append]

/-- Setting words apart adds underscores only. -/
theorem withoutUnderscores_separate (cs : List Char) :
    withoutUnderscores (separate cs) = withoutUnderscores cs := by
  cases cs with
  | nil => rfl
  | cons c rest =>
    rw [separate, ← List.singleton_append, withoutUnderscores_append,
      withoutUnderscores_flatMap_separated, ← withoutUnderscores_append, List.singleton_append]

theorem toLower_bne_underscore (c : Char) : (c.toLower != '_') = (c != '_') := by
  cases hc : c.isUpper with
  | false => rw [toLower_eq_self hc]
  | true =>
    have hascii : c.toNat < 0x80 := by
      by_contra hlt
      rw [not_isUpper_of_lt (by omega)] at hc
      cases hc
    have hall : ∀ n < 0x80, ((Char.ofNat n).toLower != '_') = (Char.ofNat n != '_') := by decide
    simpa using hall c.toNat hascii

theorem withoutUnderscores_map_toLower (cs : List Char) :
    withoutUnderscores (cs.map Char.toLower) = (withoutUnderscores cs).map Char.toLower := by
  rw [withoutUnderscores, List.filter_map, withoutUnderscores]
  exact congrArg _ (List.filter_congr fun c _ => toLower_bne_underscore c)

theorem withoutUnderscores_escapeKeyword (name : String) :
    withoutUnderscores (escapeKeyword name).toList = withoutUnderscores name.toList := by
  rcases escapeKeyword_cases name with hescape | hescape
  · rw [hescape]
  · rw [hescape, String.toList_append, withoutUnderscores_append]
    exact List.append_nil _

/-- But for underscores and case a parameter is spelt like the kind it is named after. -/
theorem withoutUnderscores_parameterName {kind : String} (h : isIdentifier kind = true) :
    withoutUnderscores (parameterName kind).toList =
      Text.lowercase (withoutUnderscores kind.toList) := by
  have hascii : ∀ c ∈ withoutUnderscores kind.toList, c.toNat < 0x80 := fun c hc =>
    toNat_lt_of_isIdentifierRest (isIdentifierRest_of_mem h c (List.mem_of_mem_filter hc))
  rw [parameterName, withoutUnderscores_escapeKeyword, toList_snakeCase_of_isIdentifier h,
    withoutUnderscores_map_toLower, withoutUnderscores_separate, Text.lowercase,
    lowerAfter_of_ascii hascii]

/-! ### The normal form -/

/-- What snake case owes to an identifier, and the parameter that is named after it. -/
structure KeepsIdentifier (s : String) : Prop where
  snake : isIdentifier (snakeCase s) = true
  idempotent : snakeCase (snakeCase s) = snakeCase s
  parameter : isIdentifier (parameterName s) = true
  unlisted : parameterName s ∉ keywords
  escaped : escapeKeyword (parameterName s) = parameterName s
  snaked : snakeCase (parameterName s) = parameterName s
  spelling : withoutUnderscores (parameterName s).toList =
    Text.lowercase (withoutUnderscores s.toList)

/-- What snake case owes to any text. -/
structure ReachesNormalForm (s : String) : Prop where
  ordered : (capitals s).Pairwise (· < ·)
  /-- A capital is found at the byte where it stands. -/
  mem_capitals_iff : ∀ p, p ∈ capitals s ↔ ∃ before c after, s.toList = before ++ c :: after ∧
    c.isUpper = true ∧ p.byteIdx = (String.ofList before).utf8ByteSize
  toList_eq : (snakeCase s).toList = Text.lowercase (separate s.toList)
  /-- Nothing but underscores is added where the words are set apart. -/
  words : ∃ words, AreWords s.toList words ∧ separate s.toList = ['_'].intercalate words
  noCapital : ∀ c ∈ (snakeCase s).toList, c.isUpper = false
  identifier : isIdentifier s = true → KeepsIdentifier s

theorem keepsIdentifier {s : String} (h : isIdentifier s = true) : KeepsIdentifier s :=
  have hunlisted : parameterName s ∉ keywords := escapeKeyword_not_mem _
  { snake := isIdentifier_snakeCase h
    idempotent := snakeCase_snakeCase h
    parameter := isIdentifier_parameterName h
    unlisted := hunlisted
    escaped := escapeKeyword_of_not_mem hunlisted
    snaked := snakeCase_parameterName h
    spelling := withoutUnderscores_parameterName h }

/-- **Snake case reaches a normal form.** The capitals of a text are found in order, each at the
byte where it stands, so the pieces that are copied begin and end between characters. In snake
case the text has an underscore before every capital but a leading one and is in lower case;
nothing of it is lost or repeated, and no capital is left. The snake case of an identifier is an
identifier that is its own snake case. So is the parameter named after it, which is no listed
keyword and needs no escape; but for underscores it is the identifier in lower case. -/
theorem snakeCase_reaches_normal_form (s : String) : ReachesNormalForm s where
  ordered := pairwise_capitalsFrom _ _
  mem_capitals_iff p := by
    rw [capitals, mem_capitalsFrom]
    simp only [String.Pos.Raw.byteIdx_zero, Nat.zero_add, String.utf8ByteSize_ofList]
  toList_eq := toList_snakeCase s
  words := exists_areWords _
  noCapital _ := not_isUpper_of_mem_snakeCase
  identifier := keepsIdentifier

/-- A name that is a keyword in lower case only. -/
theorem snakeCase_reaches_normal_form_class :
    isIdentifier "Class" = true ∧ snakeCase "Class" ∈ keywords ∧
      parameterName "Class" = "class_" ∧ "class_" ∉ keywords ∧
      escapeKeyword "class_" = "class_" ∧ snakeCase "class_" = "class_" := by
  have hclass : isIdentifier "Class" = true := by decide
  have hparameter : parameterName "Class" = "class_" := by decide
  obtain ⟨-, -, -, hunlisted, hescape, hsnake, -⟩ :=
    (snakeCase_reaches_normal_form "Class").identifier hclass
  rw [hparameter] at hunlisted hescape hsnake
  exact ⟨hclass, by decide, hparameter, hunlisted, hescape, hsnake⟩

example : snakeCase "IfÉlseIO" = "ifélse_i_o" := by decide

end VisitorGen.Name
