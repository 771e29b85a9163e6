import VisitorGen.Json.Reader

/-! What the pieces of a JSON text are read from. For each reader of `Scan` and `Reader`
one lemma says what a text has to begin with for the reader to succeed, and what it leaves
then. The faults of the other texts do not matter here. What is read in several steps has a
relation of its own, with a constructor for each way to read it. -/
namespace VisitorGen.Json

variable {α β σ : Type}

theorem bind_eq_ok {ε : Type} {x : Except ε α} {f : α → Except ε β} {b : β} :
    (x >>= f) = .ok b ↔ ∃ a, x = .ok a ∧ f a = .ok b := by
  cases x with
  | error e => exact ⟨fun h => (nomatch h), fun ⟨_, h, _⟩ => (nomatch h)⟩
  | ok a => exact ⟨fun h => ⟨a, rfl, h⟩, fun ⟨_, h, hf⟩ => by cases h; exact hf⟩

theorem map_eq_ok {ε : Type} {x : Except ε α} {f : α → β} {b : β} :
    x.map f = .ok b ↔ ∃ a, x = .ok a ∧ f a = b := by
  cases x with
  | error e => exact ⟨fun h => (nomatch h), fun ⟨_, h, _⟩ => (nomatch h)⟩
  | ok a => exact ⟨fun h => ⟨a, rfl, Except.ok.inj h⟩, fun ⟨_, h, hf⟩ => by cases h; rw [← hf]; rfl⟩

theorem skipSpace_cons {c : Char} (h : isSpace c = false) (cs : List Char) :
    skipSpace (c :: cs) = c :: cs :=
  List.dropWhile_cons_of_neg (Bool.not_eq_true _ ▸ h)

/-- White space is passed over once. -/
theorem skipSpace_skipSpace (cs : List Char) : skipSpace (skipSpace cs) = skipSpace cs := by
  induction cs with
  | nil => rfl
  | cons c cs ih =>
    cases hc : isSpace c with
    | true =>
      have hskip : skipSpace (c :: cs) = skipSpace cs := List.dropWhile_cons_of_pos hc
      rw [hskip, ih]
    | false => rw [skipSpace_cons hc, skipSpace_cons hc]

theorem skipSpace_append {gap : List Char} (h : ∀ c ∈ gap, isSpace c = true) (cs : List Char) :
    skipSpace (gap ++ cs) = skipSpace cs := by
  induction gap with
  | nil => rfl
  | cons c gap ih =>
    obtain ⟨hc, hgap⟩ := List.forall_mem_cons.1 h
    rw [skipSpace, List.cons_append, List.dropWhile_cons_of_pos hc]
    exact ih hgap

/-! ### Lists -/

section
variable {manner : Manner} {first : Bool} {cs rest : List Char}

theorem nextElement_eq_stop_iff : nextElement manner first cs = .ok (.stop rest) ↔
    ∃ left, skipSpace cs = ']' :: left ∧ rest = ']' :: left := by
  rw [nextElement]
  split
  · rename_i hcs
    simp [hcs]
  · rename_i left hcs
    simp [hcs, eq_comm]
  · rename_i c left hne hcs
    refine iff_of_false (fun h => ?_) ?_
    · split at h
      · cases h
      · split at h
        · split at h <;> cases h
        · cases h
    · rintro ⟨left', hcs', -⟩
      exact hne (List.cons.inj (hcs.symm.trans hcs')).1

theorem nextElement_eq_more_iff : nextElement manner first cs = .ok (.more rest) ↔
    ∃ c left, skipSpace cs = c :: left ∧ c ≠ ']' ∧
      if first then rest = c :: left
      else c = ',' ∧ rest = skipSpace left ∧ (manner = .kept → rest.head? ≠ some ']') := by
  rw [nextElement]
  split
  · rename_i hcs
    simp [hcs]
  · rename_i left hcs
    simp [hcs]
  · rename_i c left hne hcs
    have hform : (∃ c' left', skipSpace cs = c' :: left' ∧ c' ≠ ']' ∧
        if first then rest = c' :: left'
        else c' = ',' ∧ rest = skipSpace left' ∧ (manner = .kept → rest.head? ≠ some ']')) ↔
        if first then rest = c :: left
        else c = ',' ∧ rest = skipSpace left ∧ (manner = .kept → rest.head? ≠ some ']') := by
      constructor
      · rintro ⟨c', left', hcs', -, h⟩
        obtain ⟨rfl, rfl⟩ := List.cons.inj (hcs.symm.trans hcs')
        exact h
      · exact fun h => ⟨c, left, hcs, hne, h⟩
    rw [hform]
    cases first with
    | true => simp [eq_comm]
    | false =>
      by_cases hcomma : c = ','
      · simp only [hcomma, if_true, true_and, Bool.false_eq_true, if_false]
        split
        · rename_i hleft
          refine iff_of_false (by simp) ?_
          rintro ⟨rfl, hkept⟩
          exact hkept rfl (by rw [hleft]; rfl)
        · rename_i hkept
          constructor
          · rintro ⟨⟩
            refine ⟨rfl, fun hmanner hhead => ?_⟩
            obtain ⟨rest, hrest⟩ := List.head?_eq_some_iff.1 hhead
            exact hkept rest hmanner hrest
          · rintro ⟨rfl, -⟩
            rfl
      · simp [hcomma]

theorem nextElement_first (hmore : ∃ c left, skipSpace cs = c :: left ∧ c ≠ ']') :
    nextElement manner true cs = .ok (.more (skipSpace cs)) := by
  obtain ⟨c, left, hfirst, hc⟩ := hmore
  exact nextElement_eq_more_iff.2 ⟨c, left, hfirst, hc, hfirst⟩

/-- After a comma there is another element, if no bracket closes the list. -/
theorem nextElement_comma {more : List Char} (hcs : skipSpace cs = ',' :: more)
    (hmore : ∃ c left, skipSpace more = c :: left ∧ c ≠ ']') :
    nextElement .kept false cs = .ok (.more (skipSpace more)) := by
  refine nextElement_eq_more_iff.2 ⟨_, _, hcs, by decide, rfl, rfl, fun _ hhead => ?_⟩
  obtain ⟨c, left, hfirst, hc⟩ := hmore
  rw [hfirst] at hhead
  exact hc (Option.some.inj hhead)

theorem closeList_eq_ok_iff :
    Bracket.list.close cs = .ok ((), rest) ↔ skipSpace cs = ']' :: rest := by
  rw [Bracket.close]
  split
  · rename_i hcs
    simp [hcs]
  · rename_i left hcs
    simp [hcs]
  · rename_i left hcs
    rw [hcs]
    split <;> simp
  · rename_i hne _
    refine iff_of_false (by simp) ?_
    exact hne rest

end

/-- How the elements have been read off a text so that `rest` is left. -/
inductive ElementsRead (manner : Manner) (item : Scan α) (rest : List Char) :
    (steps : Nat) → (first : Bool) → (cs : List Char) → List α → Prop where
  | stop {steps : Nat} {first : Bool} {cs : List Char}
      (hnext : nextElement manner first cs = .ok (.stop rest)) :
      ElementsRead manner item rest (steps + 1) first cs []
  | more {steps : Nat} {first : Bool} {cs left left' : List Char} {a : α} {as : List α}
      (hnext : nextElement manner first cs = .ok (.more left)) (hitem : item left = .ok (a, left'))
      (hmore : ElementsRead manner item rest steps false left' as) :
      ElementsRead manner item rest (steps + 1) first cs (a :: as)

theorem elements_eq_ok_iff {manner : Manner} {item : Scan α} {steps : Nat} {first : Bool}
    {cs rest : List Char} {as : List α} :
    elements manner item steps first cs = .ok (as, rest) ↔
      ElementsRead manner item rest steps first cs as := by
  constructor
  · intro h
    induction steps generalizing first cs as with
    | zero => cases h
    | succ steps ih =>
      obtain ⟨next, hnext, h⟩ := bind_eq_ok.1 h
      cases next with
      | stop last =>
        cases h
        exact .stop hnext
      | more left =>
        obtain ⟨⟨a, left'⟩, hitem, h⟩ := bind_eq_ok.1 h
        obtain ⟨⟨as', last⟩, hmore, h⟩ := bind_eq_ok.1 h
        cases h
        exact .more hnext hitem (ih hmore)
  · intro h
    induction h with
    | stop hnext => exact bind_eq_ok.2 ⟨_, hnext, rfl⟩
    | more hnext hitem _ ih =>
      exact bind_eq_ok.2 ⟨_, hnext, bind_eq_ok.2 ⟨_, hitem, bind_eq_ok.2 ⟨_, ih, rfl⟩⟩⟩

/-! ### Objects -/

section
variable {manner : Manner} {first : Bool} {cs rest : List Char}

theorem key_eq_more_iff :
    nextKey.key cs = .ok (.more rest) ↔ cs = '"' :: rest := by
  unfold nextKey.key
  split
  · simp
  · rename_i hne
    exact iff_of_false (by simp) fun h => hne rest h

theorem nextKey_eq_stop_iff : nextKey manner first cs = .ok (.stop rest) ↔
    ∃ left, skipSpace cs = '\x7d' :: left ∧ rest = '\x7d' :: left := by
  have hkey : ∀ cs, nextKey.key cs ≠ .ok (.stop rest) := fun cs h => by
    unfold nextKey.key at h
    split at h <;> cases h
  rw [nextKey]
  split
  · rename_i hcs
    simp [hcs]
  · rename_i left hcs
    simp [hcs, eq_comm]
  · rename_i c left hne hcs
    refine iff_of_false (fun h => ?_) ?_
    · split at h
      · exact hkey _ h
      · split at h
        · split at h
          · cases h
          · cases h
          · cases h
          · exact hkey _ h
        · cases h
    · rintro ⟨left', hcs', -⟩
      exact hne (List.cons.inj (hcs.symm.trans hcs')).1

/-- The manner makes no difference to which keys are found, only to the faults. -/
theorem nextKey_eq_more_iff : nextKey manner first cs = .ok (.more rest) ↔
    if first then skipSpace cs = '"' :: rest
    else ∃ left, skipSpace cs = ',' :: left ∧ skipSpace left = '"' :: rest := by
  rw [nextKey]
  split
  · rename_i hcs
    simp [hcs]
  · rename_i left hcs
    simp [hcs]
  · rename_i c left hne hcs
    rw [hcs]
    cases first with
    | true => simp only [if_true, key_eq_more_iff]
    | false =>
      by_cases hcomma : c = ','
      · simp only [hcomma, if_true, Bool.false_eq_true, if_false, List.cons.injEq, true_and,
          exists_eq_left']
        split
        · rename_i hleft
          simp [hleft]
        · rename_i hleft
          simp [hleft]
        · rename_i hleft
          simp [hleft]
        · exact key_eq_more_iff
      · simp [hcomma]

theorem closeObject_eq_ok_iff :
    Bracket.object.close cs = .ok ((), rest) ↔ skipSpace cs = '\x7d' :: rest := by
  rw [Bracket.close]
  split
  · rename_i hcs
    simp [hcs]
  · rename_i left hcs
    simp [hcs]
  · rename_i left hcs
    simp [hcs]
  · rename_i hne _
    exact iff_of_false (by simp) (hne rest)

theorem colon_eq_ok_iff : colon cs = .ok ((), rest) ↔ skipSpace cs = ':' :: rest := by
  rw [colon]
  split
  · rename_i hcs
    simp [hcs]
  · rename_i left hcs
    simp [hcs]
  · rename_i hne
    exact iff_of_false (by simp) (hne rest)

end

/-- How the members have been gone through so that `rest` is left and `result` gathered. -/
inductive MembersRead (manner : Manner) (step : σ → Scan σ) (rest : List Char) (result : σ) :
    (steps : Nat) → (first : Bool) → σ → (cs : List Char) → Prop where
  | stop {steps : Nat} {first : Bool} {cs : List Char}
      (hnext : nextKey manner first cs = .ok (.stop rest)) :
      MembersRead manner step rest result (steps + 1) first result cs
  | more {steps : Nat} {first : Bool} {cs left left' : List Char} {s s' : σ}
      (hnext : nextKey manner first cs = .ok (.more left)) (hstep : step s left = .ok (s', left'))
      (hmore : MembersRead manner step rest result steps false s' left') :
      MembersRead manner step rest result (steps + 1) first s cs

theorem foldMembers_eq_ok_iff {manner : Manner} {step : σ → Scan σ} {steps : Nat} {first : Bool}
    {s result : σ} {cs rest : List Char} :
    foldMembers manner step steps first s cs = .ok (result, rest) ↔
      MembersRead manner step rest result steps first s cs := by
  constructor
  · intro h
    induction steps generalizing first s cs with
    | zero => cases h
    | succ steps ih =>
      obtain ⟨next, hnext, h⟩ := bind_eq_ok.1 h
      cases next with
      | stop last =>
        cases h
        exact .stop hnext
      | more left =>
        obtain ⟨⟨s', left'⟩, hstep, h⟩ := bind_eq_ok.1 h
        exact .more hnext hstep (ih h)
  · intro h
    induction h with
    | stop hnext => exact bind_eq_ok.2 ⟨_, hnext, rfl⟩
    | more hnext hstep _ ih => exact bind_eq_ok.2 ⟨_, hnext, bind_eq_ok.2 ⟨_, hstep, ih⟩⟩

theorem keepMember_eq_ok_iff {item : Scan Value} {before all : List (String × Value)}
    {cs rest : List Char} : keepMember item before cs = .ok (all, rest) ↔
      ∃ key left left' v, string cs = .ok (key, left) ∧ colon left = .ok ((), left') ∧
        item left' = .ok (v, rest) ∧ all = before ++ [(key, v)] := by
  constructor
  · intro h
    obtain ⟨⟨key, left⟩, hkey, h⟩ := bind_eq_ok.1 h
    obtain ⟨⟨⟨⟩, left'⟩, hcolon, h⟩ := bind_eq_ok.1 h
    obtain ⟨⟨v, last⟩, hvalue, h⟩ := bind_eq_ok.1 h
    cases h
    exact ⟨key, left, left', v, hkey, hcolon, hvalue, rfl⟩
  · rintro ⟨key, left, left', v, hkey, hcolon, hvalue, rfl⟩
    exact bind_eq_ok.2 ⟨_, hkey, bind_eq_ok.2 ⟨_, hcolon, bind_eq_ok.2 ⟨_, hvalue, rfl⟩⟩⟩

/-! ### Brackets -/

theorem enclose_eq_ok_iff {b : Bracket} {body : Scan α} {cs rest : List Char} {a : α} :
    b.enclose body cs = .ok (a, rest) ↔
      ∃ left, body cs = .ok (a, left) ∧ b.close left = .ok ((), rest) := by
  rw [Bracket.enclose]
  cases hbody : body cs with
  | error fault => simp
  | ok result =>
    obtain ⟨a', left⟩ := result
    constructor
    · intro h
      obtain ⟨⟨⟨⟩, rest'⟩, hclose, h⟩ := bind_eq_ok.1 h
      cases h
      exact ⟨left, rfl, hclose⟩
    · rintro ⟨_, ⟨⟩, hclose⟩
      exact bind_eq_ok.2 ⟨_, hclose, rfl⟩

/-! ### Values -/

/-- How the value `v` has been read off `cs` so that `rest` is left. -/
inductive ValueRead (cs rest : List Char) : (allowance : Nat) → Value → Prop where
  | scalar {n : Nat} {v : Value} {c : Char} {left : List Char} (hcs : skipSpace cs = c :: left)
      (hlist : c ≠ '[') (hobject : c ≠ '\x7b') (hscalar : scalar (c :: left) = .ok (v, rest)) :
      ValueRead cs rest n v
  | array {n : Nat} {left last : List Char} {items : List Value} (hcs : skipSpace cs = '[' :: left)
      (hitems : elements .kept (value n) (left.length + 1) true left = .ok (items, last))
      (hclose : skipSpace last = ']' :: rest) : ValueRead cs rest (n + 1) (.array items)
  | object {n : Nat} {left last : List Char} {members : List (String × Value)}
      (hcs : skipSpace cs = '\x7b' :: left)
      (hmembers : foldMembers .kept (keepMember (value n)) (left.length + 1) true [] left =
        .ok (members, last))
      (hclose : skipSpace last = '\x7d' :: rest) : ValueRead cs rest (n + 1) (.object members)

theorem arrayBody_eq_ok_iff {item : Scan Value} {cs rest : List Char} {v : Value} :
    arrayBody item cs = .ok (v, rest) ↔ ∃ items last, v = .array items ∧
      elements .kept item (cs.length + 1) true cs = .ok (items, last) ∧
      skipSpace last = ']' :: rest := by
  constructor
  · intro h
    obtain ⟨⟨items, rest'⟩, henclose, h⟩ := bind_eq_ok.1 h
    cases h
    obtain ⟨last, hitems, hclose⟩ := enclose_eq_ok_iff.1 henclose
    exact ⟨items, last, rfl, hitems, closeList_eq_ok_iff.1 hclose⟩
  · rintro ⟨items, last, rfl, hitems, hclose⟩
    exact bind_eq_ok.2 ⟨(items, rest),
      enclose_eq_ok_iff.2 ⟨last, hitems, closeList_eq_ok_iff.2 hclose⟩, rfl⟩

theorem objectBody_eq_ok_iff {item : Scan Value} {cs rest : List Char} {v : Value} :
    objectBody item cs = .ok (v, rest) ↔ ∃ members last, v = .object members ∧
      foldMembers .kept (keepMember item) (cs.length + 1) true [] cs = .ok (members, last) ∧
      skipSpace last = '\x7d' :: rest := by
  constructor
  · intro h
    obtain ⟨⟨members, rest'⟩, henclose, h⟩ := bind_eq_ok.1 h
    cases h
    obtain ⟨last, hmembers, hclose⟩ := enclose_eq_ok_iff.1 henclose
    exact ⟨members, last, rfl, hmembers, closeObject_eq_ok_iff.1 hclose⟩
  · rintro ⟨members, last, rfl, hmembers, hclose⟩
    exact bind_eq_ok.2 ⟨(members, rest),
      enclose_eq_ok_iff.2 ⟨last, hmembers, closeObject_eq_ok_iff.2 hclose⟩, rfl⟩

theorem value_of_scalar {n : Nat} {cs left : List Char} {c : Char} (hcs : skipSpace cs = c :: left)
    (hlist : c ≠ '[') (hobject : c ≠ '\x7b') : value n cs = scalar (c :: left) := by
  cases n <;> simp [value, hcs, hlist, hobject]

theorem value_eq_ok_iff {n : Nat} {cs rest : List Char} {v : Value} :
    value n cs = .ok (v, rest) ↔ ValueRead cs rest n v := by
  constructor
  · intro h
    cases hcs : skipSpace cs with
    | nil => cases n <;> simp [value, hcs, scalar] at h
    | cons c left =>
      by_cases hlist : c = '['
      · subst hlist
        cases n with
        | zero => simp [value, hcs] at h
        | succ n =>
          rw [value, hcs] at h
          obtain ⟨items, last, rfl, hitems, hclose⟩ := arrayBody_eq_ok_iff.1 h
          exact .array hcs hitems hclose
      by_cases hobject : c = '\x7b'
      · subst hobject
        cases n with
        | zero => simp [value, hcs] at h
        | succ n =>
          rw [value, hcs] at h
          obtain ⟨members, last, rfl, hmembers, hclose⟩ := objectBody_eq_ok_iff.1 h
          exact .object hcs hmembers hclose
      · rw [value_of_scalar hcs hlist hobject] at h
        exact .scalar hcs hlist hobject h
  · intro h
    cases h with
    | scalar hcs hlist hobject hscalar => rw [value_of_scalar hcs hlist hobject, hscalar]
    | array hcs hitems hclose =>
      rw [value, hcs]
      exact arrayBody_eq_ok_iff.2 ⟨_, _, rfl, hitems, hclose⟩
    | object hcs hmembers hclose =>
      rw [value, hcs]
      exact objectBody_eq_ok_iff.2 ⟨_, _, rfl, hmembers, hclose⟩

/-- White space before a value makes no difference to it. -/
theorem value_skipSpace (n : Nat) (cs : List Char) : value n (skipSpace cs) = value n cs := by
  cases n <;> simp only [value, skipSpace_skipSpace]

theorem value_congr {cs cs' : List Char} (h : skipSpace cs = skipSpace cs') (n : Nat) :
    value n cs = value n cs' := by
  rw [← value_skipSpace, h, value_skipSpace]

/-! ### Scalars -/

/-- How the scalar `v` has been read off `cs` after its first character. -/
inductive ScalarRead (cs rest : List Char) : (first : Char) → Value → Prop where
  | null (hword : word nullTail cs = .ok ((), rest)) : ScalarRead cs rest 'n' .null
  | true (hword : word trueTail cs = .ok ((), rest)) : ScalarRead cs rest 't' (.boolean true)
  | false (hword : word falseTail cs = .ok ((), rest)) : ScalarRead cs rest 'f' (.boolean false)
  | string {s : String} (hstring : string cs = .ok (s, rest)) : ScalarRead cs rest '"' (.string s)
  | number {c : Char} {n : Number} (hfirst : c = '-' ∨ isDigit c = true)
      (hnumber : number (c :: cs) = .ok (n, rest)) : ScalarRead cs rest c (.number n)

/-- Nothing else begins the way a number does. -/
theorem numeral_first_ne {c d : Char} (h : c = '-' ∨ isDigit c = true) (hdash : d ≠ '-')
    (hdigit : isDigit d = false) : c ≠ d := by
  intro heq
  subst heq
  exact h.elim hdash (Bool.eq_false_iff.1 hdigit)

theorem scalar_eq_ok_iff {c : Char} {cs rest : List Char} {v : Value} :
    scalar (c :: cs) = .ok (v, rest) ↔ ScalarRead cs rest c v := by
  constructor
  · intro h
    rw [scalar] at h
    split at h
    · obtain ⟨⟨⟨⟩, left⟩, hword, h⟩ := bind_eq_ok.1 h
      cases h
      subst c
      exact .null hword
    split at h
    · obtain ⟨⟨⟨⟩, left⟩, hword, h⟩ := bind_eq_ok.1 h
      cases h
      subst c
      exact .true hword
    split at h
    · obtain ⟨⟨⟨⟩, left⟩, hword, h⟩ := bind_eq_ok.1 h
      cases h
      subst c
      exact .false hword
    split at h
    · obtain ⟨⟨s, left⟩, hstring, h⟩ := bind_eq_ok.1 h
      cases h
      subst c
      exact .string hstring
    split at h
    · obtain ⟨⟨n, left⟩, hnumber, h⟩ := bind_eq_ok.1 h
      cases h
      exact .number ‹_› hnumber
    · cases h
  · intro h
    cases h with
    | null hword => exact bind_eq_ok.2 ⟨_, hword, rfl⟩
    | true hword => exact bind_eq_ok.2 ⟨_, hword, rfl⟩
    | false hword => exact bind_eq_ok.2 ⟨_, hword, rfl⟩
    | string hstring => exact bind_eq_ok.2 ⟨_, hstring, rfl⟩
    | number hfirst hnumber =>
      have hother : ∀ d, d ≠ '-' → isDigit d = false → c ≠ d := fun d => numeral_first_ne hfirst
      rw [scalar, if_neg (hother 'n' (by decide) rfl), if_neg (hother 't' (by decide) rfl),
        if_neg (hother 'f' (by decide) rfl), if_neg (hother '"' (by decide) rfl), if_pos hfirst]
      exact bind_eq_ok.2 ⟨_, hnumber, rfl⟩

end VisitorGen.Json
