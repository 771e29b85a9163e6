import VisitorGen.Json.Printer
import VisitorGen.Json.Quoted.RoundTrip
import VisitorGen.Proofs.Json.Progress

/-! What the printer writes is read back as what it was, in either layout. The texts of the
items of a list need not be known for that: it is enough that each is read back, whatever
stands after it (`Spells`), and the layouts differ only in the white space between them.

Numbers are left out: a schema holds none, and the text of a number ends only where
something else begins. -/
namespace VisitorGen.Json

/-- A value without numbers in which at most so many brackets are open at once. -/
def Value.Plain : (depth : Nat) → Value → Prop
  | _, .null | _, .boolean _ | _, .string _ => True
  | _, .number _ | 0, .array _ | 0, .object _ => False
  | depth + 1, .array items => ∀ item ∈ items, item.Plain depth
  | depth + 1, .object members => ∀ member ∈ members, member.2.Plain depth

/-- The text is read as the value, and nothing beyond it. -/
def Spells (n : Nat) (text : List Char) (v : Value) : Prop :=
  ∀ rest, value n (text ++ rest) = .ok (v, rest)

/-- The text is read as the member, and nothing beyond it. -/
def SpellsMember (n : Nat) (text : List Char) (member : String × Value) : Prop :=
  ∀ rest, ∃ left, skipSpace (text ++ rest) = '"' :: left ∧
    ∀ before, keepMember (value n) before left = .ok (before ++ [member], rest)

variable {α : Type} {n : Nat} {gap text : List Char} {v : Value}

theorem Spells.after_space (h : Spells n text v) (hgap : ∀ c ∈ gap, isSpace c = true) :
    Spells n (gap ++ text) v := by
  intro rest
  rw [List.append_assoc, ← value_skipSpace, skipSpace_append hgap, value_skipSpace]
  exact h rest

/-! ### Scalars -/

theorem spells_null (n : Nat) : Spells n ['n', 'u', 'l', 'l'] .null := fun _ =>
  value_eq_ok_iff.2 (.scalar rfl (by decide) (by decide) (scalar_eq_ok_iff.2 (.null rfl)))

theorem spells_boolean (n : Nat) (b : Bool) : Spells n (Value.booleanChars b) (.boolean b) := by
  intro rest
  cases b with
  | false =>
    exact value_eq_ok_iff.2 (.scalar rfl (by decide) (by decide) (scalar_eq_ok_iff.2 (.false rfl)))
  | true =>
    exact value_eq_ok_iff.2 (.scalar rfl (by decide) (by decide) (scalar_eq_ok_iff.2 (.true rfl)))

theorem quotedChars_append (s : String) (rest : List Char) :
    quotedChars s.toList ++ rest = '"' :: (s.toList.flatMap quotedChar ++ '"' :: rest) := by
  simp [quotedChars]

theorem spells_string (n : Nat) (s : String) : Spells n (quotedChars s.toList) (.string s) := by
  intro rest
  rw [quotedChars_append]
  exact value_eq_ok_iff.2 (.scalar rfl (by decide) (by decide)
    (scalar_eq_ok_iff.2 (.string (string_quoted s rest))))

/-! ### Lists -/

/-- No value begins with a closing bracket. -/
theorem value_first {cs rest : List Char} (h : value n cs = .ok (v, rest)) :
    ∃ c left, skipSpace cs = c :: left ∧ c ≠ ']' := by
  cases value_eq_ok_iff.1 h with
  | array hcs => exact ⟨_, _, hcs, by decide⟩
  | object hcs => exact ⟨_, _, hcs, by decide⟩
  | scalar hcs _ _ hscalar =>
    refine ⟨_, _, hcs, fun heq => ?_⟩
    subst heq
    cases scalar_eq_ok_iff.1 hscalar with
    | number hfirst => exact numeral_first_ne hfirst (by decide) rfl rfl

/-- The texts with a comma before each. -/
def following (print : α → List Char) (as : List α) : List Char :=
  as.flatMap fun a => ',' :: print a

/-- The texts with a comma between any two. -/
def separated (print : α → List Char) : List α → List Char
  | [] => []
  | a :: as => print a ++ following print as

theorem following_cons_append (print : α → List Char) (a : α) (as : List α) (cs : List Char) :
    following print (a :: as) ++ cs = ',' :: (print a ++ (following print as ++ cs)) := by
  simp [following]

theorem length_following (print : α → List Char) (as : List α) :
    as.length ≤ (following print as).length := by
  induction as with
  | nil => exact Nat.le_refl 0
  | cons a as ih =>
    rw [← List.append_nil (following print (a :: as)), following_cons_append]
    simp only [List.length_cons, List.length_append, List.append_nil]
    omega

theorem length_separated (print : α → List Char) (as : List α) :
    as.length ≤ (separated print as).length + 1 := by
  cases as with
  | nil => exact Nat.zero_le _
  | cons a as =>
    have hrest := length_following print as
    simp only [separated, List.length_cons, List.length_append]
    omega

section
variable {print : Value → List Char} {items : List Value} {last rest : List Char} {steps : Nat}

theorem elements_following (hitems : ∀ item ∈ items, Spells n (print item) item)
    (hlast : skipSpace last = ']' :: rest) (hsteps : items.length < steps) :
    elements .kept (value n) steps false (following print items ++ last) =
      .ok (items, ']' :: rest) := by
  rw [elements_eq_ok_iff]
  induction items generalizing steps with
  | nil =>
    obtain ⟨steps, rfl⟩ := Nat.exists_eq_succ_of_ne_zero (Nat.ne_zero_of_lt hsteps)
    exact .stop (nextElement_eq_stop_iff.2 ⟨rest, hlast, rfl⟩)
  | cons item items ih =>
    obtain ⟨hitem, hitems⟩ := List.forall_mem_cons.1 hitems
    obtain ⟨steps, rfl⟩ := Nat.exists_eq_succ_of_ne_zero (Nat.ne_zero_of_lt hsteps)
    have hvalue := hitem (following print items ++ last)
    have hnext : nextElement .kept false (following print (item :: items) ++ last) =
        .ok (.more (skipSpace (print item ++ (following print items ++ last)))) := by
      rw [following_cons_append]
      exact nextElement_comma (skipSpace_cons rfl _) (value_first hvalue)
    rw [← value_skipSpace] at hvalue
    exact .more hnext hvalue (ih hitems (Nat.lt_of_succ_lt_succ hsteps))

theorem elements_separated (hitems : ∀ item ∈ items, Spells n (print item) item)
    (hlast : skipSpace last = ']' :: rest) (hsteps : items.length < steps) :
    elements .kept (value n) steps true (separated print items ++ last) =
      .ok (items, ']' :: rest) := by
  rw [elements_eq_ok_iff]
  obtain ⟨steps, rfl⟩ := Nat.exists_eq_succ_of_ne_zero (Nat.ne_zero_of_lt hsteps)
  cases items with
  | nil => exact .stop (nextElement_eq_stop_iff.2 ⟨rest, hlast, rfl⟩)
  | cons item items =>
    obtain ⟨hitem, hitems⟩ := List.forall_mem_cons.1 hitems
    have hvalue := hitem (following print items ++ last)
    have hnext : nextElement .kept true (separated print (item :: items) ++ last) =
        .ok (.more (skipSpace (print item ++ (following print items ++ last)))) := by
      rw [separated, List.append_assoc]
      exact nextElement_first (value_first hvalue)
    have hmore := elements_following hitems hlast (Nat.lt_of_succ_lt_succ hsteps)
    rw [← value_skipSpace] at hvalue
    exact .more hnext hvalue (elements_eq_ok_iff.1 hmore)

end

theorem spells_array {print : Value → List Char} {items : List Value}
    (hitems : ∀ item ∈ items, Spells n (print item) item) (gap : List Char)
    (hgap : ∀ c ∈ gap, isSpace c = true) :
    Spells (n + 1) ('[' :: separated print items ++ gap ++ [']']) (.array items) := by
  intro rest
  have hlast : skipSpace (gap ++ ']' :: rest) = ']' :: rest := by
    rw [skipSpace_append hgap, skipSpace_cons rfl]
  have htext : '[' :: separated print items ++ gap ++ [']'] ++ rest =
      '[' :: (separated print items ++ (gap ++ ']' :: rest)) := by simp
  have hlength := length_separated print items
  rw [htext]
  refine value_eq_ok_iff.2 (.array rfl (elements_separated hitems hlast ?_) (skipSpace_cons rfl _))
  simp only [List.length_append, List.length_cons]
  omega

/-! ### Objects -/

section
variable {print : String × Value → List Char} {members : List (String × Value)}
  {last rest : List Char} {steps : Nat}

theorem foldMembers_following
    (hmembers : ∀ member ∈ members, SpellsMember n (print member) member)
    (hlast : skipSpace last = '\x7d' :: rest) (hsteps : members.length < steps)
    (before : List (String × Value)) :
    foldMembers .kept (keepMember (value n)) steps false before
      (following print members ++ last) = .ok (before ++ members, '\x7d' :: rest) := by
  induction members generalizing steps before with
  | nil =>
    obtain ⟨steps, rfl⟩ := Nat.exists_eq_succ_of_ne_zero (Nat.ne_zero_of_lt hsteps)
    rw [List.append_nil, foldMembers_eq_ok_iff]
    exact .stop (nextKey_eq_stop_iff.2 ⟨rest, hlast, rfl⟩)
  | cons member members ih =>
    obtain ⟨hmember, hmembers⟩ := List.forall_mem_cons.1 hmembers
    obtain ⟨steps, rfl⟩ := Nat.exists_eq_succ_of_ne_zero (Nat.ne_zero_of_lt hsteps)
    obtain ⟨left, hkey, hkept⟩ := hmember (following print members ++ last)
    have hnext : nextKey .kept false (following print (member :: members) ++ last) =
        .ok (.more left) := by
      rw [following_cons_append]
      exact nextKey_eq_more_iff.2 ⟨_, skipSpace_cons rfl _, hkey⟩
    have hmore := ih hmembers (Nat.lt_of_succ_lt_succ hsteps) (before ++ [member])
    rw [List.append_assoc, foldMembers_eq_ok_iff] at hmore
    exact foldMembers_eq_ok_iff.2 (.more hnext (hkept before) hmore)

theorem foldMembers_separated
    (hmembers : ∀ member ∈ members, SpellsMember n (print member) member)
    (hlast : skipSpace last = '\x7d' :: rest) (hsteps : members.length < steps) :
    foldMembers .kept (keepMember (value n)) steps true [] (separated print members ++ last) =
      .ok (members, '\x7d' :: rest) := by
  rw [foldMembers_eq_ok_iff]
  obtain ⟨steps, rfl⟩ := Nat.exists_eq_succ_of_ne_zero (Nat.ne_zero_of_lt hsteps)
  cases members with
  | nil => exact .stop (nextKey_eq_stop_iff.2 ⟨rest, hlast, rfl⟩)
  | cons member members =>
    obtain ⟨hmember, hmembers⟩ := List.forall_mem_cons.1 hmembers
    obtain ⟨left, hkey, hkept⟩ := hmember (following print members ++ last)
    have hnext : nextKey .kept true (separated print (member :: members) ++ last) =
        .ok (.more left) := by
      rw [separated, List.append_assoc]
      exact nextKey_eq_more_iff.2 hkey
    have hmore := foldMembers_following hmembers hlast (Nat.lt_of_succ_lt_succ hsteps) [member]
    exact .more hnext (hkept []) (foldMembers_eq_ok_iff.1 hmore)

end

theorem spells_object {print : String × Value → List Char} {members : List (String × Value)}
    (hmembers : ∀ member ∈ members, SpellsMember n (print member) member) (gap : List Char)
    (hgap : ∀ c ∈ gap, isSpace c = true) :
    Spells (n + 1) ('\x7b' :: separated print members ++ gap ++ ['\x7d']) (.object members) := by
  intro rest
  have hlast : skipSpace (gap ++ '\x7d' :: rest) = '\x7d' :: rest := by
    rw [skipSpace_append hgap, skipSpace_cons rfl]
  have htext : '\x7b' :: separated print members ++ gap ++ ['\x7d'] ++ rest =
      '\x7b' :: (separated print members ++ (gap ++ '\x7d' :: rest)) := by simp
  have hlength := length_separated print members
  rw [htext]
  refine value_eq_ok_iff.2
    (.object rfl (foldMembers_separated hmembers hlast ?_) (skipSpace_cons rfl _))
  simp only [List.length_append, List.length_cons]
  omega

/-- White space may stand before the key and after the colon. -/
theorem spellsMember (key : String) (h : Spells n text v) (gap gap' : List Char)
    (hgap : ∀ c ∈ gap, isSpace c = true) (hgap' : ∀ c ∈ gap', isSpace c = true) :
    SpellsMember n (gap ++ quotedChars key.toList ++ ':' :: (gap' ++ text)) (key, v) := by
  intro rest
  refine ⟨key.toList.flatMap quotedChar ++ '"' :: ':' :: (gap' ++ text ++ rest), ?_, ?_⟩
  · rw [List.append_assoc, List.append_assoc, skipSpace_append hgap, quotedChars_append]
    exact skipSpace_cons rfl _
  · intro before
    have hcolon : colon (':' :: (gap' ++ text ++ rest)) = .ok ((), gap' ++ text ++ rest) :=
      colon_eq_ok_iff.2 (skipSpace_cons rfl _)
    have hvalue := h.after_space hgap' rest
    exact bind_eq_ok.2 ⟨_, string_quoted key _, bind_eq_ok.2 ⟨_, hcolon,
      bind_eq_ok.2 ⟨_, hvalue, rfl⟩⟩⟩

/-! ### The two layouts -/

/-- A printer that goes from one to the next with a comma in between. -/
theorem separated_unique {prints : List α → List Char} {print : α → List Char}
    (hnil : prints [] = []) (hone : ∀ a, prints [a] = print a)
    (hmore : ∀ a b as, prints (a :: b :: as) = print a ++ ',' :: prints (b :: as)) (as : List α) :
    prints as = separated print as := by
  induction as with
  | nil => exact hnil
  | cons a as ih =>
    cases as with
    | nil => rw [hone, separated, following, List.flatMap_nil, List.append_nil]
    | cons b as =>
      rw [hmore, ih, separated, separated, ← List.append_nil (following print (b :: as)),
        following_cons_append, List.append_nil]

namespace Value

/-- A member without any space. -/
def compactMember (member : String × Value) : List Char :=
  quotedChars member.1.toList ++ ':' :: member.2.compactChars

/-- A member on a line of its own. -/
def prettyMember (level : Nat) (member : String × Value) : List Char :=
  lineStart level ++ quotedChars member.1.toList ++ ':' :: ' ' :: member.2.prettyChars level

theorem compactItems_eq (items : List Value) :
    compactItems items = separated compactChars items :=
  separated_unique rfl (fun _ => rfl) (fun _ _ _ => rfl) items

theorem compactMembers_eq (members : List (String × Value)) :
    compactMembers members = separated compactMember members :=
  separated_unique rfl (fun _ => rfl) (fun _ _ _ => rfl) members

theorem prettyItems_eq (level : Nat) (items : List Value) : prettyItems level items =
    separated (fun item => lineStart level ++ item.prettyChars level) items :=
  separated_unique rfl (fun _ => rfl) (fun _ _ _ => rfl) items

theorem prettyMembers_eq (level : Nat) (members : List (String × Value)) :
    prettyMembers level members = separated (prettyMember level) members :=
  separated_unique rfl (fun _ => rfl) (fun _ _ _ => rfl) members

theorem isSpace_lineStart (level : Nat) : ∀ c ∈ lineStart level, isSpace c = true := by
  intro c hc
  rcases List.mem_cons.1 hc with rfl | hc
  · rfl
  · rw [List.eq_of_mem_replicate hc]
    rfl

theorem not_plain_number (n : Nat) (x : Number) : ¬(number x).Plain n := by
  cases n <;> exact id

theorem Plain.mono {m n : Nat} {v : Value} (hv : v.Plain m) (h : m ≤ n) : v.Plain n := by
  match m, n, v, hv with
  | _, n, .null, _ | _, n, .boolean _, _ | _, n, .string _, _ => cases n <;> trivial
  | m, _, .number x, hv => exact (not_plain_number m x hv).elim
  | m + 1, n + 1, .array items, hv =>
    exact fun item hitem => (hv item hitem).mono (Nat.le_of_succ_le_succ h)
  | m + 1, n + 1, .object members, hv =>
    exact fun member hmember => (hv member hmember).mono (Nat.le_of_succ_le_succ h)

/-- Without any space. -/
theorem spells_compact {n : Nat} {v : Value} (hv : v.Plain n) : Spells n v.compactChars v := by
  have hnone : ∀ c ∈ ([] : List Char), isSpace c = true := fun _ hc => (List.not_mem_nil hc).elim
  match n, v, hv with
  | n, .null, _ => exact spells_null n
  | n, .boolean b, _ => exact spells_boolean n b
  | n, .string s, _ => exact spells_string n s
  | n, .number x, hv => exact (not_plain_number n x hv).elim
  | n + 1, .array items, hv =>
    have hitems : ∀ item ∈ items, Spells n item.compactChars item :=
      fun item hitem => spells_compact (hv item hitem)
    have htext := spells_array hitems [] hnone
    rwa [List.append_nil, ← compactItems_eq] at htext
  | n + 1, .object members, hv =>
    have hmembers : ∀ member ∈ members, SpellsMember n (compactMember member) member :=
      fun member hmember =>
        spellsMember member.1 (spells_compact (hv member hmember)) [] [] hnone hnone
    have htext := spells_object hmembers [] hnone
    rwa [List.append_nil, ← compactMembers_eq] at htext

/-- Laid out over lines. -/
theorem spells_pretty {n : Nat} {v : Value} (level : Nat) (hv : v.Plain n) :
    Spells n (v.prettyChars level) v := by
  match n, v, hv with
  | n, .null, _ => exact spells_null n
  | n, .boolean b, _ => exact spells_boolean n b
  | n, .string s, _ => exact spells_string n s
  | n, .number x, hv => exact (not_plain_number n x hv).elim
  | n + 1, .array [], hv => exact spells_compact hv
  | n + 1, .array (item :: items), hv =>
    have hitems : ∀ next ∈ item :: items,
        Spells n (lineStart (level + 1) ++ next.prettyChars (level + 1)) next := fun next hnext =>
      (spells_pretty (level + 1) (hv next hnext)).after_space (isSpace_lineStart _)
    have htext := spells_array hitems (lineStart level) (isSpace_lineStart level)
    rwa [← prettyItems_eq] at htext
  | n + 1, .object [], hv => exact spells_compact hv
  | n + 1, .object (member :: members), hv =>
    have hmembers : ∀ next ∈ member :: members,
        SpellsMember n (prettyMember (level + 1) next) next := fun next hnext =>
      spellsMember next.1 (spells_pretty (level + 1) (hv next hnext))
        (lineStart (level + 1)) [' '] (isSpace_lineStart _) (List.forall_mem_singleton.2 rfl)
    have htext := spells_object hmembers (lineStart level) (isSpace_lineStart level)
    rwa [← prettyMembers_eq] at htext

end Value
end VisitorGen.Json
