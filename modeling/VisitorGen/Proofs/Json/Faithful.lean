import VisitorGen.Json.Decoder
import VisitorGen.Proofs.Json.Tokens

/-! Faithful decoders. A decoder has two ways to a value of its type: it scans a text, or
it converts a JSON value that has been read from it. It is faithful when the two agree on
every text that can be read, in what they give and in whether they give anything.

Here are the decoders that hold no members; a decoder is faithful when the decoders that it
is made of are. -/
namespace VisitorGen.Json

variable {α β : Type}

/-- Scanning what can be read as a value gives what converting the value gives. -/
def Decoder.Faithful (d : Decoder α) : Prop :=
  ∀ ⦃n : Nat⦄ ⦃cs rest : List Char⦄ ⦃v : Value⦄, value n cs = .ok (v, rest) →
    (d.scan n cs).toOption = (d.convert v).toOption.map fun a => (a, rest)

/-! ### Success -/

@[simp] theorem toOption_ok {ε : Type} (a : α) : (Except.ok a : Except ε α).toOption = some a := rfl

@[simp] theorem toOption_pure {ε : Type} (a : α) : (pure a : Except ε α).toOption = some a := rfl

@[simp] theorem toOption_error {ε : Type} (e : ε) : (Except.error e : Except ε α).toOption = none :=
  rfl

@[simp] theorem toOption_throw {ε : Type} (e : ε) :
    (throw e : Except ε α).toOption = none := rfl

theorem toOption_eq_some_iff {ε : Type} {x : Except ε α} {a : α} :
    x.toOption = some a ↔ x = .ok a := by
  cases x <;> simp

@[simp] theorem toOption_bind {ε : Type} (x : Except ε α) (f : α → Except ε β) :
    (x >>= f).toOption = x.toOption.bind fun a => (f a).toOption := by
  cases x <;> rfl

theorem toOption_enclose (b : Bracket) (body : Scan α) (cs : List Char) :
    (b.enclose body cs).toOption = (body cs).toOption.bind fun (a, rest) =>
      (b.close rest).toOption.map fun ((), rest) => (a, rest) := by
  rw [Bracket.enclose]
  cases body cs with
  | error fault => rfl
  | ok result =>
    obtain ⟨a, left⟩ := result
    simp only [toOption_ok, Option.bind_some, toOption_bind]
    cases b.close left <;> rfl

/-- What a faithful decoder scans it would also convert, and it leaves what reading leaves. -/
theorem Decoder.Faithful.convert_of_scan {d : Decoder α} (h : d.Faithful) {n : Nat}
    {cs rest left : List Char} {v : Value} {a : α} (hvalue : value n cs = .ok (v, rest))
    (hscan : d.scan n cs = .ok (a, left)) : d.convert v = .ok a ∧ left = rest := by
  have hsame := h hvalue
  rw [hscan] at hsame
  cases hconvert : d.convert v with
  | error m => simp [hconvert] at hsame
  | ok b => simpa [hconvert, eq_comm] using hsame

/-! ### Scalars -/

namespace Decoder

@[simp] theorem faithful_map {d : Decoder α} (h : d.Faithful) (f : α → β) : (d.map f).Faithful := by
  intro n cs rest v hvalue
  have hd := h hvalue
  simp only [map, toOption_bind, hd]
  cases d.convert v <;> rfl

theorem scan_text {expected : String} {n : Nat} {cs left : List Char} {c : Char}
    (hcs : skipSpace cs = c :: left) (hc : c ≠ '"') :
    ((text expected).scan n cs).toOption = none := by
  simp [text, hcs, hc]

@[simp] theorem faithful_text (expected : String) : (text expected).Faithful := by
  intro n cs rest v hvalue
  cases value_eq_ok_iff.1 hvalue with
  | scalar hcs _ _ hscalar =>
    cases scalar_eq_ok_iff.1 hscalar with
    | string hstring => simp [text, hcs, hstring]
    | null => exact scan_text hcs (by decide)
    | true => exact scan_text hcs (by decide)
    | false => exact scan_text hcs (by decide)
    | number hfirst => exact scan_text hcs (numeral_first_ne hfirst (by decide) rfl)
  | array hcs => exact scan_text hcs (by decide)
  | object hcs => exact scan_text hcs (by decide)

@[simp] theorem faithful_string : string.Faithful := faithful_text "a string"

/-- Only a null begins with the letter of the word. -/
@[simp] theorem faithful_optional {d : Decoder α} (h : d.Faithful) : d.optional.Faithful := by
  intro n cs rest v hvalue
  have hd : (d.scan n (skipSpace cs)).toOption = (d.convert v).toOption.map fun a => (a, rest) :=
    h ((value_skipSpace n cs).trans hvalue)
  have hsome : ∀ {c left}, skipSpace cs = c :: left → c ≠ 'n' → v ≠ .null →
      (d.optional.scan n cs).toOption = (d.optional.convert v).toOption.map fun a => (a, rest) := by
    intro c left hcs hc hv
    rw [hcs] at hd
    simp only [optional, hcs]
    split
    · exact absurd (List.cons.inj ‹_›).1 hc
    simp only [toOption_bind, hd]
    cases d.convert v <;> rfl
  cases value_eq_ok_iff.1 hvalue with
  | scalar hcs _ _ hscalar =>
    cases scalar_eq_ok_iff.1 hscalar with
    | null hword =>
      simp only [optional, hcs, hword]
      rfl
    | true => exact hsome hcs (by decide) nofun
    | false => exact hsome hcs (by decide) nofun
    | string => exact hsome hcs (by decide) nofun
    | number hfirst => exact hsome hcs (numeral_first_ne hfirst (by decide) rfl) nofun
  | array hcs => exact hsome hcs (by decide) nofun
  | object hcs => exact hsome hcs (by decide) nofun

@[simp] theorem faithful_choice (expected : String) (first second : String × α) :
    (choice expected first second).Faithful := by
  intro n cs rest v hvalue
  have htext := faithful_text expected hvalue
  simp only [choice, toOption_bind, htext]
  cases (text expected).convert v with
  | error m => rfl
  | ok name => cases hpick : choice.pick first second name <;> simp [hpick]

/-! ### Lists -/

theorem elements_faithful {d : Decoder α} (h : d.Faithful) {n steps : Nat} {first : Bool}
    {cs rest : List Char} {items : List Value}
    (hitems : elements .kept (value n) steps first cs = .ok (items, rest)) :
    (elements .kept (d.scan n) steps first cs).toOption =
      (items.mapM d.convert).toOption.map fun as => (as, rest) := by
  rw [elements_eq_ok_iff] at hitems
  induction hitems with
  | stop hnext =>
    rw [elements, hnext]
    rfl
  | @more _ _ _ left left' v vs hnext hvalue _ ih =>
    rw [elements, hnext]
    simp only [List.mapM_cons, toOption_bind, toOption_ok, Option.bind_some, h hvalue]
    cases d.convert v with
    | error m => rfl
    | ok a =>
      simp only [toOption_ok, Option.map_some, Option.bind_some, ih]
      cases vs.mapM d.convert <;> rfl

@[simp] theorem faithful_list {d : Decoder α} (h : d.Faithful) : d.list.Faithful := by
  intro n cs rest v hvalue
  have hother : ∀ {c left}, skipSpace cs = c :: left → c ≠ '[' →
      (d.list.scan n cs).toOption = none := fun hcs hc => by simp [list, hcs, hc]
  cases value_eq_ok_iff.1 hvalue with
  | scalar hcs hlist _ hscalar =>
    rw [hother hcs hlist]
    cases scalar_eq_ok_iff.1 hscalar <;> rfl
  | object hcs => exact hother hcs (by decide)
  | @array n left last items hcs hitems hclose =>
    simp only [list, hcs, nested, toOption_enclose, elements_faithful h hitems]
    cases items.mapM d.convert with
    | error m => rfl
    | ok as =>
      simp only [toOption_ok, Option.map_some, Option.bind_some, closeList_eq_ok_iff.2 hclose]

end Decoder
end VisitorGen.Json
