import VisitorGen.Proofs.Json.Faithful
import VisitorGen.Proofs.Json.Wellformed

/-! Thorough decoders. Not every well-formed text can be read: there may be too many brackets
open at once, or a numeral that is out of range. A decoder that goes through a text meets such a
place, unless it passes over the member where it stands. It is thorough on a value when it passes
over nothing: of the texts of the value it scans only those that can be read.

Reading is thorough (`thorough_any`), and so is every decoder that reads nothing but what a value
would be read from (`Decoder.Strict`). Decoders of lists and objects are thorough when those for
the parts are, since a text is gone through in the same steps whatever is made of it. -/
namespace VisitorGen.Json

variable {α β σ : Type} {n depth : Nat} {c : Char} {text cs rest left : List Char} {v : Value}

theorem ScalarFormed.formed (h : ScalarFormed text v) (depth : Nat) : Formed depth text v := by
  cases depth with
  | zero => exact h
  | succ depth => exact Or.inl h

/-! ### How texts begin -/

/-- No value begins with white space or a closing bracket. -/
theorem ScalarFormed.first (h : ScalarFormed text v) :
    ∃ c more, text = c :: more ∧ isSpace c = false ∧ c ≠ ']' := by
  have hfirst : ∀ numeral, NumeralWritten text numeral →
      ∃ c more, text = c :: more ∧ isSpace c = false ∧ c ≠ ']' := fun numeral hnumeral => by
    obtain ⟨c, more, rfl, hfirst⟩ := hnumeral.first
    obtain ⟨hspace, -, -, hclose⟩ := numeral_first hfirst
    exact ⟨c, more, rfl, hspace, hclose⟩
  cases h with
  | numeral hnumeral => exact hfirst _ hnumeral
  | written h =>
    cases h with
    | null | boolTrue | boolFalse => exact ⟨_, _, rfl, rfl, by decide⟩
    | string hstring =>
      cases hstring
      exact ⟨_, _, rfl, rfl, by decide⟩
    | number hnumber =>
      obtain ⟨numeral, hnumeral, -⟩ := hnumber.numeral
      exact hfirst numeral hnumeral

theorem Formed.first (h : Formed depth text v) :
    ∃ c more, text = c :: more ∧ isSpace c = false ∧ c ≠ ']' := by
  cases depth with
  | zero => exact ScalarFormed.first h
  | succ depth =>
    rcases h with h | h
    · exact h.first
    · cases h <;> exact ⟨_, _, rfl, rfl, by decide⟩

theorem Commas.formed_first {items : List Value}
    (h : Commas (Spaced (Formed depth)) text items) (rest : List Char) :
    ∃ c left, skipSpace (text ++ rest) = c :: left ∧ c ≠ ']' := by
  have hspaced : ∀ {text v}, Spaced (Formed depth) text v → ∀ rest,
      ∃ c left, skipSpace (text ++ rest) = c :: left ∧ c ≠ ']' := by
    intro text v h rest
    obtain ⟨hbefore, -, hcore⟩ := h
    obtain ⟨c, more, rfl, hspace, hclose⟩ := hcore.first
    rw [List.append_assoc, List.append_assoc, skipSpace_append hbefore]
    exact ⟨c, _, skipSpace_cons hspace _, hclose⟩
  cases h with
  | last hfirst => exact hspaced hfirst rest
  | more hfirst =>
    rw [List.append_assoc]
    exact hspaced hfirst _

theorem Commas.member_first {item : List Char → Value → Prop} {members : List (String × Value)}
    (h : Commas (MemberWritten item) text members) (rest : List Char) :
    ∃ left, skipSpace (text ++ rest) = '"' :: left := by
  cases h with
  | last hmember =>
    obtain ⟨left, _, _, hfirst, -⟩ := hmember.opens rest
    exact ⟨left, hfirst⟩
  | @more _ more _ _ hmember =>
    obtain ⟨left, _, _, hfirst, -⟩ := hmember.opens (',' :: more ++ rest)
    rw [List.append_assoc]
    exact ⟨left, hfirst⟩

/-! ### Decoders -/

namespace Decoder

/-- Every value, as it is. -/
def any : Decoder Value := ⟨value, .ok⟩

theorem faithful_any : any.Faithful := by
  intro n cs rest v hvalue
  have hscan : any.scan n cs = .ok (v, rest) := hvalue
  rw [hscan]
  rfl

/-- Of the well-formed texts of the value to that depth, the decoder scans only such as can be
read as the value. -/
def ThoroughTo (d : Decoder α) (depth : Nat) (v : Value) : Prop :=
  ∀ ⦃n : Nat⦄ ⦃text cs rest : List Char⦄ ⦃result : α × List Char⦄, Formed depth text v →
    Ends rest → skipSpace cs = skipSpace (text ++ rest) → d.scan n cs = .ok result →
      Reads n text v

def Thorough (d : Decoder α) (v : Value) : Prop := ∀ depth, d.ThoroughTo depth v

variable {d : Decoder α}

theorem Thorough.map (h : d.Thorough v) (f : α → β) : (d.map f).Thorough v := by
  intro depth n text cs rest result htext hrest hcs hscan
  obtain ⟨_, hscan, -⟩ := bind_eq_ok.1 hscan
  exact h depth htext hrest hcs hscan

/-- What stands after the value is left. -/
theorem ThoroughTo.spaced (h : d.ThoroughTo depth v) (hd : d.Faithful)
    (htext : Spaced (Formed depth) text v) (hrest : Ends rest)
    (hcs : skipSpace cs = skipSpace (text ++ rest)) {a : α} {left : List Char}
    (hscan : d.scan n cs = .ok (a, left)) :
    Spaced (Reads n) text v ∧ skipSpace left = skipSpace rest := by
  obtain ⟨hbefore, hafter, hcore⟩ := htext
  rename_i before core after
  have hends : Ends (after ++ rest) := ends_gap hafter hrest
  have hshape : skipSpace (before ++ core ++ after ++ rest) =
      skipSpace (core ++ (after ++ rest)) := by
    rw [List.append_assoc, List.append_assoc, skipSpace_append hbefore]
  have hreads : Reads n core v := h hcore hends (hcs.trans hshape) hscan
  have hvalue : value n cs = .ok (v, after ++ rest) :=
    (value_congr (hcs.trans hshape) n).trans (hreads _ hends)
  obtain ⟨-, rfl⟩ := hd.convert_of_scan hvalue hscan
  exact ⟨.around hbefore hafter hreads, skipSpace_append hafter rest⟩

end Decoder

/-! ### Lists and objects -/

/-- The elements of a list can be read when a thorough decoder has scanned them. -/
theorem Commas.reads_of_elementsRead {d : Decoder α} (hd : d.Faithful) {items : List Value}
    (h : Commas (Spaced (Formed depth)) text items) (hitem : ∀ v ∈ items, d.ThoroughTo depth v)
    {steps : Nat} {first : Bool} {last : List Char} {as : List α}
    (hnext : nextElement .kept first cs = .ok (.more (skipSpace (text ++ ']' :: rest))))
    (hread : ElementsRead .kept (d.scan n) last steps first cs as) :
    Commas (Spaced (Reads n)) text items := by
  induction h generalizing steps first cs as with
  | last hfirst =>
    cases hread with
    | stop hstop => cases hstop.symm.trans hnext
    | more hmore hscan =>
      cases hmore.symm.trans hnext
      exact .last ((hitem _ List.mem_cons_self).spaced hd hfirst (ends_list rest)
        (skipSpace_skipSpace _) hscan).1
  | @more text more a as hfirst htexts ih =>
    obtain ⟨hfirst', hitems⟩ := List.forall_mem_cons.1 hitem
    rw [List.append_assoc] at hnext
    cases hread with
    | stop hstop => cases hstop.symm.trans hnext
    | more hmore hscan hread =>
      cases hmore.symm.trans hnext
      obtain ⟨hreads, hleft⟩ := hfirst'.spaced hd hfirst (ends_comma _)
        (skipSpace_skipSpace _) hscan
      have hnext' := nextElement_comma (hleft.trans (skipSpace_cons rfl _))
        (htexts.formed_first (']' :: rest))
      exact .more hreads (ih hitems hnext' hread)

theorem Commas.reads_of_elements {d : Decoder α} (hd : d.Faithful) {items : List Value}
    (h : Commas (Spaced (Formed depth)) text items) (hitem : ∀ v ∈ items, d.ThoroughTo depth v)
    {steps : Nat} {last : List Char} {as : List α}
    (hscan : elements .kept (d.scan n) steps true (text ++ ']' :: rest) = .ok (as, last)) :
    Commas (Spaced (Reads n)) text items :=
  h.reads_of_elementsRead hd hitem (nextElement_first (h.formed_first _))
    (elements_eq_ok_iff.1 hscan)

/-- A step takes only such members as can be read, and leaves what stands after the member. -/
def ThoroughStep (step : σ → Scan σ) (n depth : Nat) (member : String × Value) : Prop :=
  ∀ ⦃s s' : σ⦄ ⦃cs left text rest last : List Char⦄, string cs = .ok (member.1, left) →
    colon left = .ok ((), text ++ rest) → Spaced (Formed depth) text member.2 → Ends rest →
      step s cs = .ok (s', last) → Spaced (Reads n) text member.2 ∧ skipSpace last = skipSpace rest

/-- The members of an object can be read when thorough steps have gone through them. -/
theorem Commas.reads_of_membersRead {step : σ → Scan σ} {members : List (String × Value)}
    (h : Commas (MemberWritten (Formed depth)) text members)
    (hstep : ∀ member ∈ members, ThoroughStep step n depth member) {steps : Nat} {first : Bool}
    {left last : List Char} {s result : σ}
    (hleft : skipSpace (text ++ '\x7d' :: rest) = '"' :: left)
    (hnext : nextKey .kept first cs = .ok (.more left))
    (hread : MembersRead .kept step last result steps first s cs) :
    Commas (MemberWritten (Reads n)) text members := by
  induction h generalizing steps first cs left s with
  | @last text member hmember =>
    obtain ⟨key, v⟩ := member
    obtain ⟨left', _, _, hfirst, hstring, hcolon, hvalue, hwritten⟩ :=
      hmember.opens ('\x7d' :: rest)
    cases hleft.symm.trans hfirst
    cases hread with
    | stop hstop => cases hstop.symm.trans hnext
    | more hmore hscan =>
      cases hmore.symm.trans hnext
      have hreads := hstep _ List.mem_cons_self hstring hcolon hvalue (ends_object rest) hscan
      exact .last (hwritten hreads.1)
  | @more text more member members hmember htexts ih =>
    obtain ⟨hfirst', hmembers⟩ := List.forall_mem_cons.1 hstep
    obtain ⟨key, v⟩ := member
    rw [List.append_assoc] at hleft
    obtain ⟨left', _, _, hfirst, hstring, hcolon, hvalue, hwritten⟩ :=
      hmember.opens (',' :: more ++ '\x7d' :: rest)
    cases hleft.symm.trans hfirst
    cases hread with
    | stop hstop => cases hstop.symm.trans hnext
    | more hmore hscan hread =>
      cases hmore.symm.trans hnext
      obtain ⟨hreads, hlast⟩ := hfirst' hstring hcolon hvalue (ends_comma _) hscan
      obtain ⟨left'', hsecond⟩ := htexts.member_first ('\x7d' :: rest)
      have hnext' : nextKey .kept false _ = .ok (.more left'') :=
        nextKey_eq_more_iff.2 ⟨_, hlast.trans (skipSpace_cons rfl _), hsecond⟩
      exact .more (hwritten hreads) (ih hmembers hsecond hnext' hread)

theorem Commas.reads_of_foldMembers {step : σ → Scan σ} {members : List (String × Value)}
    (h : Commas (MemberWritten (Formed depth)) text members)
    (hstep : ∀ member ∈ members, ThoroughStep step n depth member) {steps : Nat}
    {last : List Char} {s result : σ}
    (hscan : foldMembers .kept step steps true s (text ++ '\x7d' :: rest) = .ok (result, last)) :
    Commas (MemberWritten (Reads n)) text members := by
  obtain ⟨left, hleft⟩ := h.member_first ('\x7d' :: rest)
  have hnext : nextKey .kept true (text ++ '\x7d' :: rest) = .ok (.more left) :=
    nextKey_eq_more_iff.2 hleft
  exact h.reads_of_membersRead hstep hleft hnext (foldMembers_eq_ok_iff.1 hscan)

/-- A list or object begins with its opening bracket. -/
theorem NestedWritten.opens {item : List Char → Value → Prop} (h : NestedWritten item text v)
    (rest : List Char) :
    ∃ c left, skipSpace (text ++ rest) = c :: left ∧ (c = '[' ∨ c = '\x7b') := by
  cases h with
  | emptyArray | array => exact ⟨'[', _, skipSpace_cons rfl _, Or.inl rfl⟩
  | emptyObject | object => exact ⟨'\x7b', _, skipSpace_cons rfl _, Or.inr rfl⟩

/-- A list can be read when what stands between its brackets can. -/
theorem NestedWritten.reads_of_list (h : NestedWritten (Formed depth) text v)
    (hopen : skipSpace (text ++ rest) = '[' :: left)
    (hbody : ∀ body items, v = .array items → Commas (Spaced (Formed depth)) body items →
      left = body ++ ']' :: rest → Commas (Spaced (Reads n)) body items) :
    Reads (n + 1) text v := by
  have hreads : NestedWritten (Reads n) text v := by
    cases h with
    | emptyArray hgap => exact .emptyArray hgap
    | emptyObject | object => cases (skipSpace_cons rfl _).symm.trans hopen
    | @array body items hitems =>
      have htext : '[' :: body ++ [']'] ++ rest = '[' :: (body ++ ']' :: rest) := by simp
      rw [htext, skipSpace_cons rfl] at hopen
      exact .array (hbody _ _ rfl hitems (List.cons.inj hopen).2.symm)
  exact hreads.reads id

/-- An object can be read when what stands between its brackets can. -/
theorem NestedWritten.reads_of_object (h : NestedWritten (Formed depth) text v)
    (hopen : skipSpace (text ++ rest) = '\x7b' :: left)
    (hbody : ∀ body members, v = .object members →
      Commas (MemberWritten (Formed depth)) body members → left = body ++ '\x7d' :: rest →
      Commas (MemberWritten (Reads n)) body members) : Reads (n + 1) text v := by
  have hreads : NestedWritten (Reads n) text v := by
    cases h with
    | emptyObject hgap => exact .emptyObject hgap
    | emptyArray | array => cases (skipSpace_cons rfl _).symm.trans hopen
    | @object body members hmembers =>
      have htext : '\x7b' :: body ++ ['\x7d'] ++ rest = '\x7b' :: (body ++ '\x7d' :: rest) := by
        simp
      rw [htext, skipSpace_cons rfl] at hopen
      exact .object (hbody _ _ rfl hmembers (List.cons.inj hopen).2.symm)
  exact hreads.reads id

theorem thoroughStep_keepMember {member : String × Value}
    (h : Decoder.any.ThoroughTo depth member.2) :
    ThoroughStep (keepMember (value n)) n depth member := by
  intro s s' cs left text rest last hstring hcolon hvalue hrest hstep
  obtain ⟨_, _, _, _, hstring', hcolon', hread, -⟩ := keepMember_eq_ok_iff.1 hstep
  cases hstring.symm.trans hstring'
  cases hcolon.symm.trans hcolon'
  exact h.spaced Decoder.faithful_any hvalue hrest rfl hread

theorem ScalarFormed.reads_of_value (h : ScalarFormed text v) (hrest : Ends rest)
    {read : Value × List Char} (hread : value n (text ++ rest) = .ok read) : Reads n text v := by
  cases h with
  | written h => exact h.reads n
  | numeral hnumeral hvalue =>
    obtain ⟨m, hm, -⟩ := (hnumeral.value_eq_ok_iff n hrest).1 hread
    obtain rfl := hvalue m hm
    exact fun rest hrest => (hnumeral.value_eq_ok_iff n hrest).2 ⟨m, hm, rfl, rfl⟩

/-- **Reading is thorough.** The induction is on the number of brackets that are open. -/
theorem Decoder.thorough_any (v : Value) : any.Thorough v := by
  intro depth
  induction depth generalizing v with
  | zero =>
    intro n text cs rest read h hrest hcs hread
    exact ScalarFormed.reads_of_value h hrest ((value_congr hcs n).symm.trans hread)
  | succ depth ih =>
    intro n text cs rest read h hrest hcs hread
    have hread' : value n (text ++ rest) = .ok read := (value_congr hcs n).symm.trans hread
    rcases h with h | h
    · exact h.reads_of_value hrest hread'
    obtain ⟨w, last⟩ := read
    cases value_eq_ok_iff.1 hread' with
    | scalar hopen hlist hobject =>
      obtain ⟨c, left, hfirst, hc⟩ := h.opens rest
      cases hopen.symm.trans hfirst
      exact absurd hc (not_or.2 ⟨hlist, hobject⟩)
    | array hopen hscan =>
      refine h.reads_of_list hopen fun body items _ hbody hleft => ?_
      subst hleft
      exact hbody.reads_of_elements faithful_any (fun item _ => ih item) hscan
    | object hopen hscan =>
      refine h.reads_of_object hopen fun body members _ hbody hleft => ?_
      subst hleft
      exact hbody.reads_of_foldMembers (fun member _ => thoroughStep_keepMember (ih member.2))
        hscan

/-! ### Decoders that begin with a bracket -/

/-- A numeral begins with no bracket, and every other scalar can be read. -/
theorem ScalarFormed.reads_of_bracket (h : ScalarFormed text v)
    (hopen : skipSpace (text ++ rest) = c :: left) (hc : c = '[' ∨ c = '\x7b') (n : Nat) :
    Reads n text v := by
  cases h with
  | written h => exact h.reads n
  | numeral hnumeral =>
    obtain ⟨d, more, rfl, hfirst⟩ := hnumeral.first
    obtain ⟨hspace, hlist, hobject, -⟩ := numeral_first hfirst
    rw [List.cons_append, skipSpace_cons hspace] at hopen
    cases hopen
    exact absurd hc (not_or.2 ⟨hlist, hobject⟩)

theorem Formed.reads_of_list (h : Formed depth text v)
    (hopen : skipSpace (text ++ rest) = '[' :: left)
    (hbody : ∀ depth body items, v = .array items → Commas (Spaced (Formed depth)) body items →
      left = body ++ ']' :: rest → Commas (Spaced (Reads n)) body items) :
    Reads (n + 1) text v := by
  cases depth with
  | zero => exact ScalarFormed.reads_of_bracket h hopen (Or.inl rfl) _
  | succ depth =>
    rcases h with h | h
    · exact h.reads_of_bracket hopen (Or.inl rfl) _
    · exact h.reads_of_list hopen (hbody depth)

theorem Formed.reads_of_object (h : Formed depth text v)
    (hopen : skipSpace (text ++ rest) = '\x7b' :: left)
    (hbody : ∀ depth body members, v = .object members →
      Commas (MemberWritten (Formed depth)) body members → left = body ++ '\x7d' :: rest →
      Commas (MemberWritten (Reads n)) body members) : Reads (n + 1) text v := by
  cases depth with
  | zero => exact ScalarFormed.reads_of_bracket h hopen (Or.inr rfl) _
  | succ depth =>
    rcases h with h | h
    · exact h.reads_of_bracket hopen (Or.inr rfl) _
    · exact h.reads_of_object hopen (hbody depth)

theorem nested_eq_ok_iff {bracket : Char} {body : Nat → Scan α} {result : α × List Char} :
    nested n bracket body cs = .ok result ↔ ∃ m, n = m + 1 ∧ body m cs = .ok result := by
  cases n <;> simp [nested]

/-! ### Decoders without members -/

namespace Decoder

variable {d : Decoder α}

/-- What the decoder scans can be read as some value. -/
def Strict (d : Decoder α) : Prop :=
  ∀ ⦃n : Nat⦄ ⦃cs : List Char⦄ ⦃result : α × List Char⦄, d.scan n cs = .ok result →
    ∃ read, value n cs = .ok read

theorem Strict.thorough (h : d.Strict) (v : Value) : d.Thorough v := by
  intro depth n text cs rest result htext hrest hcs hscan
  obtain ⟨read, hread⟩ := h hscan
  exact thorough_any v depth htext hrest hcs hread

theorem strict_text (expected : String) : (Decoder.text expected).Strict := by
  intro n cs result hscan
  simp only [Decoder.text] at hscan
  split at hscan
  · rename_i left hcs
    exact ⟨_, value_eq_ok_iff.2 (.scalar hcs (by decide) (by decide)
      (scalar_eq_ok_iff.2 (.string hscan)))⟩
  · cases hscan

theorem strict_optional (h : d.Strict) : d.optional.Strict := by
  intro n cs result hscan
  simp only [optional] at hscan
  split at hscan
  · rename_i left hcs
    obtain ⟨_, hword, -⟩ := bind_eq_ok.1 hscan
    exact ⟨_, value_eq_ok_iff.2 (.scalar hcs (by decide) (by decide)
      (scalar_eq_ok_iff.2 (.null hword)))⟩
  · obtain ⟨_, hscan, -⟩ := bind_eq_ok.1 hscan
    obtain ⟨read, hread⟩ := h hscan
    exact ⟨read, (value_skipSpace n cs).symm.trans hread⟩

theorem strict_choice (expected : String) (first second : String × α) :
    (choice expected first second).Strict := by
  intro n cs result hscan
  obtain ⟨_, hscan, -⟩ := bind_eq_ok.1 hscan
  exact strict_text expected hscan

theorem thorough_list (hd : d.Faithful)
    (h : ∀ items, v = .array items → ∀ item ∈ items, d.Thorough item) : d.list.Thorough v := by
  intro depth n text cs rest result htext hrest hcs hscan
  simp only [list] at hscan
  split at hscan
  · rename_i left hopen
    obtain ⟨n, rfl, hnested⟩ := nested_eq_ok_iff.1 hscan
    obtain ⟨last, hscan, -⟩ := enclose_eq_ok_iff.1 hnested
    refine htext.reads_of_list (hcs.symm.trans hopen) fun depth body items hv hbody hleft => ?_
    subst hleft
    exact hbody.reads_of_elements hd (fun item hitem => h items hv item hitem depth) hscan
  · cases hscan

end Decoder

end VisitorGen.Json
