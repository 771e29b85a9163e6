import VisitorGen.Hierarchy.Path
import VisitorGen.Proofs.Integrity.Sound
import VisitorGen.Proofs.Name.Characters
import VisitorGen.Proofs.Text.Splitting

/-! Qualified names in a sound schema. They are spelt with the characters of identifiers
and the colons between them, and the last component is the name itself, so that a
qualified name tells which name it belongs to (`qualifiedName_injective`). -/
namespace VisitorGen.Schema
open Text (splitLast?)

variable {s : Schema}

/-- What is written between two components of a qualified name. -/
def pathSeparator : List Char := [':', ':']

/-! ### Components -/

/-- The components of a qualified name, outermost first. -/
def components (s : Schema) (name : String) : List String := (s.path? name).getD [name]

theorem qualifiedName_eq (name : String) :
    s.qualifiedName name = String.intercalate "::" (s.components name) := rfl

theorem exists_climb?_eq {steps : Nat} {name : String} {path : List String}
    (h : s.climb? steps name = some path) : ∃ front, path = front ++ [name] := by
  cases steps with
  | zero => cases h
  | succ steps =>
    rw [climb?] at h
    split at h
    · cases h
      exact ⟨[], rfl⟩
    · obtain ⟨front, -, rfl⟩ := Option.map_eq_some_iff.1 h
      exact ⟨front, rfl⟩

/-- The last component is the name itself. -/
theorem exists_components_eq (s : Schema) (name : String) :
    ∃ front, s.components name = front ++ [name] := by
  unfold components
  cases hpath : s.path? name with
  | none => exact ⟨[], rfl⟩
  | some path => exact exists_climb?_eq hpath

theorem Sound.isIdentifier_parentOf (h : s.Sound) {name p : String}
    (hp : s.parentOf? name = some p) : Name.isIdentifier p = true := by
  obtain ⟨kind, hkind, hparent⟩ := Option.bind_eq_some_iff.1 hp
  exact h.isIdentifier_parent (mem_abstractKinds.1 (List.mem_of_find?_eq_some hkind)) hparent

theorem Sound.isIdentifier_of_climb? (h : s.Sound) {steps : Nat} {name : String}
    {path : List String} (hname : Name.isIdentifier name = true)
    (hpath : s.climb? steps name = some path) : ∀ c ∈ path, Name.isIdentifier c = true := by
  induction steps generalizing name path with
  | zero => cases hpath
  | succ steps ih =>
    rw [climb?] at hpath
    split at hpath
    · cases hpath
      simpa using hname
    · rename_i p hp
      obtain ⟨front, hfront, rfl⟩ := Option.map_eq_some_iff.1 hpath
      intro c hc
      rcases List.mem_append.1 hc with hc | hc
      · exact ih (h.isIdentifier_parentOf hp) hfront c hc
      · exact List.mem_singleton.1 hc ▸ hname

theorem Sound.isIdentifier_component (h : s.Sound) {name : String}
    (hname : Name.isIdentifier name = true) :
    ∀ c ∈ s.components name, Name.isIdentifier c = true := by
  unfold components
  cases hpath : s.path? name with
  | none => simpa using hname
  | some path => exact h.isIdentifier_of_climb? hname hpath

/-! ### Spelling -/

/-- A character other than the colon that no identifier is spelt with. -/
theorem Sound.not_mem_qualifiedName (h : s.Sound) {name : String}
    (hname : Name.isIdentifier name = true) {c : Char} (hc : Name.isIdentifierRest c = false)
    (hcolon : c ≠ ':') : c ∉ (s.qualifiedName name).toList := fun hmem => by
  rcases Text.mem_intercalate hmem with hc' | ⟨x, hx, hcx⟩
  · exact hcolon (by simpa using hc')
  · exact Name.not_mem_of_isIdentifier (h.isIdentifier_component hname x hx) hc hcx

/-! ### Taking a path apart -/

/-- The last component of a path comes off when it is an identifier. -/
theorem splitLast?_path {name : String} (hname : Name.isIdentifier name = true)
    (front : List Char) :
    splitLast? pathSeparator (front ++ pathSeparator ++ name.toList) =
      some (front, name.toList) := by
  refine Text.splitLast?_eq_some ?_ front
  have hnone := Text.splitLast?_eq_none_of_not_mem
    (Name.not_mem_of_isIdentifier hname (c := ':') rfl) [':']
  obtain ⟨c, rest, hchars, hc, -⟩ := Name.exists_toList_of_isIdentifier hname
  have hcolon : c ≠ ':' := by
    rintro rfl
    cases hc
  rw [List.singleton_append, splitLast?, hnone]
  simp [hchars, List.dropPrefix?, hcolon]

theorem exists_qualifiedName_eq (s : Schema) (name : String) :
    s.qualifiedName name = name ∨
      ∃ front, (s.qualifiedName name).toList = front ++ pathSeparator ++ name.toList := by
  obtain ⟨front, hfront⟩ := s.exists_components_eq name
  rw [qualifiedName_eq, hfront]
  cases front with
  | nil => exact Or.inl String.intercalate_singleton
  | cons x front =>
    refine Or.inr ⟨(String.intercalate "::" (x :: front)).toList, ?_⟩
    rw [String.intercalate_append_of_ne_nil (List.cons_ne_nil x front) (List.cons_ne_nil name []),
      String.intercalate_singleton, String.toList_append, String.toList_append]
    rfl

theorem toList_nested (scope name : String) :
    (scope ++ "::" ++ name).toList = scope.toList ++ pathSeparator ++ name.toList := by
  simp [pathSeparator]

/-- A nested path tells its scope and its last component. -/
theorem nested_injective {scope scope' a b : String} (ha : Name.isIdentifier a = true)
    (hb : Name.isIdentifier b = true) (h : scope ++ "::" ++ a = scope' ++ "::" ++ b) :
    scope = scope' ∧ a = b := by
  have htext : scope.toList ++ pathSeparator ++ a.toList =
      scope'.toList ++ pathSeparator ++ b.toList := by
    rw [← toList_nested, ← toList_nested, h]
  have hsplit := splitLast?_path ha scope.toList
  rw [htext, splitLast?_path hb, Option.some.injEq, Prod.mk.injEq, String.toList_inj,
    String.toList_inj] at hsplit
  exact ⟨hsplit.1.symm, hsplit.2.symm⟩

/-- The last component of a path. -/
def lastName (path : String) : String :=
  match splitLast? pathSeparator path.toList with
  | some (_, name) => .ofList name
  | none => path

theorem splitLast?_name {name : String} (hname : Name.isIdentifier name = true) :
    splitLast? pathSeparator name.toList = none :=
  Text.splitLast?_eq_none_of_not_mem (Name.not_mem_of_isIdentifier hname rfl) _

theorem lastName_nested {name : String} (hname : Name.isIdentifier name = true) (scope : String) :
    lastName (scope ++ "::" ++ name) = name := by
  rw [lastName, toList_nested, splitLast?_path hname]
  exact String.ofList_toList

theorem lastName_qualifiedName {name : String} (hname : Name.isIdentifier name = true) :
    lastName (s.qualifiedName name) = name := by
  unfold lastName
  rcases s.exists_qualifiedName_eq name with heq | ⟨front, heq⟩
  · rw [heq, splitLast?_name hname]
  · rw [heq, splitLast?_path hname]
    exact String.ofList_toList

/-- Different names have different qualified names, even in different schemas. -/
theorem qualifiedName_injective {t : Schema} {a b : String} (ha : Name.isIdentifier a = true)
    (hb : Name.isIdentifier b = true) (h : s.qualifiedName a = t.qualifiedName b) : a = b := by
  rw [← lastName_qualifiedName (s := s) ha, h, lastName_qualifiedName hb]

/-! ### Other schemas with the same entries -/

section Congr

variable {t : Schema}

theorem abstractKinds_congr (h : s.entries = t.entries) : s.abstractKinds = t.abstractKinds :=
  congrArg (List.filterMap Entry.abstract?) h

theorem climb?_congr (h : s.entries = t.entries) (steps : Nat) (name : String) :
    s.climb? steps name = t.climb? steps name := by
  have hparent : s.parentOf? = t.parentOf? := by
    funext name
    rw [parentOf?, parentOf?, abstractKind?, abstractKind?, abstractKinds_congr h]
  induction steps generalizing name with
  | zero => rfl
  | succ steps ih =>
    rw [climb?, climb?, hparent]
    cases t.parentOf? name with
    | none => rfl
    | some parent => exact congrArg (Option.map (· ++ [name])) (ih parent)

/-- Qualified names depend on the entries alone. -/
theorem qualifiedName_congr (h : s.entries = t.entries) : s.qualifiedName = t.qualifiedName := by
  funext name
  rw [qualifiedName, qualifiedName, path?, path?, abstractKinds_congr h, climb?_congr h]

end Congr

end VisitorGen.Schema
