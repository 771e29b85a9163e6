import Mathlib.Logic.Basic
import VisitorGen.Failure

/-! The checklist of a schema: every check that it has to pass, in order of precedence.

A check is a rule asked of an entry or of a field at its position, and whether it fails is
a matter of the schema alone. The rules come in two phases. Names of abstract kinds are
compared first, all through the schema; then each entry is asked everything else, its
fields last. `verify_reports_first_failed_check` says that a schema is refused exactly
when some check fails, and that the defect reported is that of the first one. -/
namespace VisitorGen

/-! ### Rules -/

/-- What is asked of a kind, in the order in which it is asked. -/
inductive KindRule where
  | identifier
  | unreserved
  | knownParent
  | earlierParent
  | aloneInScope
  | unlikeParent
deriving DecidableEq, Repr

/-- What is asked of a field, in the order in which it is asked. -/
inductive FieldRule where
  | identifier
  | unreserved
  | unlikeKind
  | typed
  | unrepeated
deriving DecidableEq, Repr

namespace KindRule

def all : List KindRule :=
  [identifier, unreserved, knownParent, earlierParent, aloneInScope, unlikeParent]

/-- The entry at this position breaks the rule. -/
def Broken (s : Schema) (position : Nat) (e : Entry) : KindRule → Prop
  | identifier => Name.isIdentifier e.name = false
  | unreserved => e.name ∈ Name.memberNames ∨ e.name ∈ Name.keywords
  | knownParent => ∃ p ∈ e.parent?, ∀ other ∈ s.entries, other.declares p = false
  | earlierParent => ∃ p ∈ e.parent?, ∃ other ∈ s.entries.drop position, other.declares p = true
  | aloneInScope =>
    ∃ other ∈ s.entries.take position, other.parent? = e.parent? ∧ other.name = e.name
  | unlikeParent => ∃ kind ∈ e.concrete?, kind.name = kind.parent

instance (s : Schema) (position : Nat) (e : Entry) :
    (rule : KindRule) → Decidable (rule.Broken s position e)
  | identifier => inferInstanceAs (Decidable (_ = _))
  | unreserved => inferInstanceAs (Decidable (_ ∨ _))
  | knownParent => inferInstanceAs (Decidable (∃ p ∈ e.parent?, ∀ other ∈ s.entries, _ = _))
  | earlierParent =>
    inferInstanceAs (Decidable (∃ p ∈ e.parent?, ∃ other ∈ s.entries.drop _, _ = _))
  | aloneInScope => inferInstanceAs (Decidable (∃ other ∈ s.entries.take _, _ ∧ _))
  | unlikeParent => inferInstanceAs (Decidable (∃ kind ∈ e.concrete?, _ = _))

/-- What is reported of an entry that breaks the rule. -/
def defect (e : Entry) : KindRule → Defect
  | identifier => .kindNotIdentifier e.name
  | unreserved => .kindReserved e.name
  | knownParent => .unknownParent (e.parent?.getD "") e.name
  | earlierParent => .lateParent (e.parent?.getD "") e.name
  | aloneInScope => .repeatedInScope e.name
  | unlikeParent => .namedAfterParent e.name

end KindRule

namespace FieldRule

def all : List FieldRule := [identifier, unreserved, unlikeKind, typed, unrepeated]

/-- The field at this position of the kind breaks the rule. -/
def Broken (kind : ConcreteKind) (position : Nat) (f : Field) : FieldRule → Prop
  | identifier => Name.isIdentifier f.name = false
  | unreserved => f.name ∈ Name.memberNames ∨ f.name ∈ Name.keywords
  | unlikeKind => f.name = kind.name
  | typed => Text.trim f.type = ""
  | unrepeated => ∃ other ∈ kind.fields.take position, other.name = f.name

instance (kind : ConcreteKind) (position : Nat) (f : Field) :
    (rule : FieldRule) → Decidable (rule.Broken kind position f)
  | identifier => inferInstanceAs (Decidable (_ = _))
  | unreserved => inferInstanceAs (Decidable (_ ∨ _))
  | unlikeKind => inferInstanceAs (Decidable (_ = _))
  | typed => inferInstanceAs (Decidable (_ = _))
  | unrepeated => inferInstanceAs (Decidable (∃ other ∈ kind.fields.take _, _ = _))

def defect (kind : ConcreteKind) (f : Field) : FieldRule → Defect
  | identifier => .fieldNotIdentifier f.name kind.name
  | unreserved => .fieldReserved f.name kind.name
  | unlikeKind => .fieldNamedAfterKind f.name kind.name
  | typed => .fieldWithoutType f.name kind.name
  | unrepeated => .repeatedField f.name kind.name

end FieldRule

/-! ### Checks -/

/-- A rule asked of what stands at a position. The rule of abstract names is that no
abstract kind at a smaller position has the name. -/
inductive Check where
  | ofName (position : Nat) (kind : AbstractKind)
  | ofKind (position : Nat) (e : Entry) (rule : KindRule)
  | ofField (kind : ConcreteKind) (position : Nat) (f : Field) (rule : FieldRule)

namespace Check

def Fails (s : Schema) : Check → Prop
  | ofName position kind => ∃ other ∈ s.entries.take position, other.declares kind.name = true
  | ofKind position e rule => rule.Broken s position e
  | ofField kind position f rule => rule.Broken kind position f

instance (s : Schema) : (c : Check) → Decidable (c.Fails s)
  | ofName position kind =>
    inferInstanceAs (Decidable (∃ other ∈ s.entries.take position, other.declares kind.name = true))
  | ofKind position e rule => inferInstanceAs (Decidable (rule.Broken s position e))
  | ofField kind position f rule => inferInstanceAs (Decidable (rule.Broken kind position f))

def defect : Check → Defect
  | ofName _ kind => .repeatedAbstractKind kind.name
  | ofKind _ e rule => rule.defect e
  | ofField kind _ f rule => rule.defect kind f

/-- The defect, if the check fails. -/
def report? (s : Schema) (c : Check) : Option Defect := if c.Fails s then some c.defect else none

end Check

/-- The checks of the fields of an entry, field by field. -/
def Entry.fieldChecks : Entry → List Check
  | .ofAbstract _ => []
  | .ofConcrete kind =>
    kind.fields.zipIdx.flatMap fun (f, position) => FieldRule.all.map (.ofField kind position f)

namespace Schema

/-- The checks of the first phase. -/
def nameChecks (s : Schema) : List Check :=
  s.entries.zipIdx.flatMap fun (e, position) => e.abstract?.toList.map (.ofName position)

/-- The checks of the second phase, entry by entry. -/
def entryChecks (s : Schema) : List Check :=
  s.entries.zipIdx.flatMap fun (e, position) =>
    KindRule.all.map (.ofKind position e) ++ e.fieldChecks

/-- Every check of the schema, in order of precedence. -/
def checks (s : Schema) : List Check := s.nameChecks ++ s.entryChecks

end Schema

/-! ### The reports of a list of checks -/

namespace Check
variable {s : Schema} {c : Check}

theorem report?_eq_none_iff : c.report? s = none ↔ ¬ c.Fails s := by
  simp [report?]

/-- The first report among the checks. -/
def first? (s : Schema) (cs : List Check) : Option Defect := cs.findSome? (·.report? s)

theorem report?_or (o : Option Defect) :
    (c.report? s).or o = if c.Fails s then some c.defect else o := by
  by_cases h : c.Fails s <;> simp [report?, h]

theorem first?_cons (cs : List Check) : first? s (c :: cs) = (c.report? s).or (first? s cs) := by
  cases h : c.report? s <;> simp [first?, h]

theorem first?_append (cs ds : List Check) :
    first? s (cs ++ ds) = (first? s cs).or (first? s ds) := by
  simp [first?]

theorem first?_eq_none_iff {cs : List Check} : first? s cs = none ↔ ∀ c ∈ cs, ¬ c.Fails s := by
  simp [first?, report?_eq_none_iff]

end Check

/-! ### Fields -/

theorem Name.isReserved_iff {name : String} :
    Name.isReserved name = true ↔ name ∈ Name.memberNames ∨ name ∈ Name.keywords := by
  simp [Name.isReserved, Name.isKeyword]

theorem Text.isBlankText_iff {text : String} :
    Text.isBlankText text = true ↔ Text.trim text = "" := by
  rw [Text.isBlankText, List.isEmpty_iff, Text.trim, String.ofList_eq_empty_iff]

namespace ConcreteKind
open Check

variable (s : Schema) (kind : ConcreteKind)

/-- The names seen are those of the fields before this one. -/
theorem fieldDefect?_eq_first? (before rest : List Field) (f : Field) (seen : List String)
    (hfields : kind.fields = before ++ f :: rest)
    (hseen : ∀ name, name ∈ seen ↔ ∃ g ∈ before, g.name = name) :
    kind.fieldDefect? seen f =
      first? s (FieldRule.all.map (.ofField kind before.length f)) := by
  have hrepeated : seen.contains f.name = true ↔
      ∃ g ∈ kind.fields.take before.length, g.name = f.name := by
    rw [hfields, List.take_left, List.contains_iff_mem, hseen]
  simp only [FieldRule.all, List.map_cons, List.map_nil, first?_cons, report?_or]
  exact if_congr (by simp [Fails, FieldRule.Broken]) rfl <|
    if_congr Name.isReserved_iff rfl <| if_congr Iff.rfl rfl <|
    if_congr Text.isBlankText_iff rfl <| if_congr hrepeated rfl rfl

theorem fieldsDefect?_eq_first? (before rest : List Field) (seen : List String)
    (hfields : kind.fields = before ++ rest)
    (hseen : ∀ name, name ∈ seen ↔ ∃ g ∈ before, g.name = name) :
    kind.fieldsDefect? seen rest =
      first? s ((rest.zipIdx before.length).flatMap fun (f, position) =>
        FieldRule.all.map (.ofField kind position f)) := by
  induction rest generalizing before seen with
  | nil => rfl
  | cons f rest ih =>
    have hnext := ih (before ++ [f]) (f.name :: seen) (by simp [hfields]) fun name => by
      simp [hseen, or_comm, eq_comm]
    rw [List.length_append, List.length_singleton] at hnext
    rw [fieldsDefect?, List.zipIdx_cons, List.flatMap_cons, first?_append, hnext,
      kind.fieldDefect?_eq_first? s before rest f seen hfields hseen]

end ConcreteKind

/-! ### The names of abstract kinds -/

namespace Schema
open Check

variable {s : Schema}

theorem mem_nameChecks {c : Check} : c ∈ s.nameChecks ↔ ∃ position kind,
    s.entries[position]? = some (.ofAbstract kind) ∧ c = .ofName position kind := by
  simp only [nameChecks, List.mem_flatMap, List.mem_map, Option.mem_toList, Prod.exists,
    List.mem_zipIdx_iff_getElem?]
  constructor
  · rintro ⟨e, position, he, kind, hkind, rfl⟩
    cases e with
    | ofAbstract k => cases hkind; exact ⟨position, _, he, rfl⟩
    | ofConcrete k => cases hkind
  · rintro ⟨position, kind, he, rfl⟩
    exact ⟨_, position, he, kind, rfl, rfl⟩

/-- Once all names of abstract kinds have passed, no two positions declare one name. -/
theorem not_declares_drop (hnames : ∀ c ∈ s.nameChecks, ¬ c.Fails s) {position : Nat} {p : String}
    {a b : Entry} (ha : a ∈ s.entries.take position) (hp : a.declares p = true)
    (hb : b ∈ s.entries.drop position) : b.declares p = false := by
  rw [Bool.eq_false_iff]
  intro hdeclares
  obtain ⟨later, hlater⟩ := List.mem_iff_getElem?.1 hb
  rw [List.getElem?_drop] at hlater
  cases b with
  | ofConcrete kind => cases hdeclares
  | ofAbstract kind =>
    have hname : kind.name = p := by simpa [Entry.declares] using hdeclares
    refine hnames _ (mem_nameChecks.2 ⟨_, kind, hlater, rfl⟩) ⟨a, ?_, hname ▸ hp⟩
    exact (List.take_subset_take_left _ (Nat.le_add_right position later)) ha

theorem repeatedAbstract?_eq_first? (before rest : List Entry) (seen : List String)
    (hentries : s.entries = before ++ rest)
    (hseen : ∀ name, name ∈ seen ↔ ∃ e ∈ before, e.declares name = true) :
    repeatedAbstract? seen (rest.filterMap Entry.abstract?) =
      first? s ((rest.zipIdx before.length).flatMap fun (e, position) =>
        e.abstract?.toList.map (.ofName position)) := by
  induction rest generalizing before seen with
  | nil => rfl
  | cons e rest ih =>
    have htake : s.entries.take before.length = before := by rw [hentries, List.take_left]
    have hnext := ih (before ++ [e])
    rw [List.length_append, List.length_singleton] at hnext
    rw [List.zipIdx_cons, List.flatMap_cons]
    cases e with
    | ofConcrete kind =>
      exact hnext seen (by simp [hentries]) fun name => by simp [hseen, Entry.declares]
    | ofAbstract kind =>
      have hrest := hnext (kind.name :: seen) (by simp [hentries]) fun name => by
        simp [hseen, Entry.declares, @eq_comm _ name, or_comm]
      simp only [List.filterMap_cons, Entry.abstract?, Option.toList_some, List.map_cons,
        List.map_nil, List.singleton_append, first?_cons, report?_or, repeatedAbstract?]
      refine if_congr ?_ rfl hrest
      rw [List.contains_iff_mem, hseen, Fails, htake]

theorem repeatedAbstract?_eq : repeatedAbstract? [] s.abstractKinds = first? s s.nameChecks :=
  repeatedAbstract?_eq_first? [] s.entries [] rfl (by simp)

end Schema

/-! ### Entries -/

namespace Entry
open Check

variable {s : Schema} {e : Entry} {passed rest : List Entry}

theorem nameDefect?_eq_first? (position : Nat) :
    e.nameDefect? =
      first? s [.ofKind position e .identifier, .ofKind position e .unreserved] := by
  simp only [first?_cons, report?_or]
  exact if_congr (by simp [Fails, KindRule.Broken]) rfl <| if_congr Name.isReserved_iff rfl rfl

theorem parentDefect?_eq_first? (hnames : ∀ c ∈ s.nameChecks, ¬ c.Fails s)
    (hentries : s.entries = passed.reverse ++ e :: rest) :
    e.parentDefect? s passed =
      first? s [.ofKind passed.length e .knownParent, .ofKind passed.length e .earlierParent] := by
  have htake : s.entries.take passed.length = passed.reverse := by
    rw [hentries, List.take_left' List.length_reverse]
  simp only [first?_cons, report?_or]
  unfold parentDefect?
  cases hparent : e.parent? with
  | none => simp [Fails, KindRule.Broken, hparent, first?]
  | some p =>
    have hknown : Fails s (.ofKind passed.length e .knownParent) ↔
        ∀ other ∈ s.entries, other.declares p = false := by
      simp [Fails, KindRule.Broken, hparent]
    have hearlier : Fails s (.ofKind passed.length e .earlierParent) ↔
        ∃ other ∈ s.entries.drop passed.length, other.declares p = true := by
      simp [Fails, KindRule.Broken, hparent]
    by_cases hbefore : ∃ a ∈ passed, a.declares p = true
    · obtain ⟨a, ha, hp⟩ := hbefore
      have hmem : a ∈ s.entries.take passed.length := by simpa [htake] using ha
      have hdrop : ¬ ∃ b ∈ s.entries.drop passed.length, b.declares p = true := by
        rintro ⟨b, hb, hdeclares⟩
        rw [Schema.not_declares_drop hnames hmem hp hb] at hdeclares
        exact Bool.false_ne_true hdeclares
      have hall : ¬ ∀ b ∈ s.entries, b.declares p = false := fun h => by
        rw [h a (List.mem_of_mem_take hmem)] at hp
        exact Bool.false_ne_true hp
      rw [if_neg (hknown.not.2 hall), if_neg (hearlier.not.2 hdrop)]
      exact if_pos (List.any_eq_true.2 ⟨a, ha, hp⟩)
    · have hany : ¬ passed.any (·.declares p) = true := fun h => hbefore (List.any_eq_true.1 h)
      by_cases hall : ∀ b ∈ s.entries, b.declares p = false
      · have hnone : ¬ s.entries.any (·.declares p) = true := by simpa using hall
        simp only [if_neg hany, if_neg hnone, if_pos (hknown.2 hall)]
        simp [Check.defect, KindRule.defect, hparent]
      · have hsome : ∃ b ∈ s.entries, b.declares p = true := by simpa using hall
        have hdrop : ∃ b ∈ s.entries.drop passed.length, b.declares p = true := by
          obtain ⟨b, hb, hdeclares⟩ := hsome
          rw [← List.take_append_drop passed.length s.entries, List.mem_append, htake] at hb
          rcases hb with hb | hb
          · exact absurd ⟨b, List.mem_reverse.1 hb, hdeclares⟩ hbefore
          · exact ⟨b, hb, hdeclares⟩
        simp only [if_neg hany, if_pos (List.any_eq_true.2 hsome), if_neg (hknown.not.2 hall),
          if_pos (hearlier.2 hdrop)]
        simp [Check.defect, KindRule.defect, hparent]

theorem scopeDefect?_eq_first? (hentries : s.entries = passed.reverse ++ e :: rest) :
    e.scopeDefect? passed = first? s [.ofKind passed.length e .aloneInScope] := by
  have htake : s.entries.take passed.length = passed.reverse := by
    rw [hentries, List.take_left' List.length_reverse]
  simp only [first?_cons, report?_or]
  refine if_congr ?_ rfl rfl
  simp [Fails, KindRule.Broken, htake]

theorem fieldsDefect?_eq_first? (position : Nat) :
    e.fieldsDefect? = first? s (.ofKind position e .unlikeParent :: e.fieldChecks) := by
  rw [first?_cons, report?_or]
  cases e with
  | ofAbstract kind => simp [Fails, KindRule.Broken, concrete?, fieldsDefect?, fieldChecks, first?]
  | ofConcrete kind =>
    refine if_congr (by simp [Fails, KindRule.Broken, concrete?]) rfl ?_
    exact kind.fieldsDefect?_eq_first? s [] kind.fields [] rfl (by simp)

/-- An entry is asked its checks in turn, given that the first phase has been passed. -/
theorem defect?_eq_first? (hnames : ∀ c ∈ s.nameChecks, ¬ c.Fails s)
    (hentries : s.entries = passed.reverse ++ e :: rest) :
    e.defect? s passed =
      first? s (KindRule.all.map (.ofKind passed.length e) ++ e.fieldChecks) := by
  rw [defect?, nameDefect?_eq_first? passed.length, parentDefect?_eq_first? hnames hentries,
    scopeDefect?_eq_first? hentries, fieldsDefect?_eq_first? passed.length, ← first?_append,
    ← first?_append, ← first?_append]
  rfl

end Entry

/-! ### The whole schema -/

namespace Schema
open Check

variable {s : Schema}

theorem entriesDefect?_eq_first? (hnames : ∀ c ∈ s.nameChecks, ¬ c.Fails s)
    (passed rest : List Entry) (hentries : s.entries = passed.reverse ++ rest) :
    s.entriesDefect? passed rest =
      first? s ((rest.zipIdx passed.length).flatMap fun (e, position) =>
        KindRule.all.map (.ofKind position e) ++ e.fieldChecks) := by
  induction rest generalizing passed with
  | nil => rfl
  | cons e rest ih =>
    rw [entriesDefect?, List.zipIdx_cons, List.flatMap_cons, first?_append,
      Entry.defect?_eq_first? hnames hentries, ih (e :: passed) (by simp [hentries])]
    rfl

/-- The defect of a schema is the first one on its checklist. -/
theorem defect?_eq_first? (s : Schema) : s.defect? = first? s s.checks := by
  rw [defect?, repeatedAbstract?_eq, checks, first?_append]
  cases hnames : first? s s.nameChecks with
  | some d => rfl
  | none =>
    rw [entriesDefect?_eq_first? (first?_eq_none_iff.1 hnames) [] s.entries rfl]
    rfl

theorem verify_eq_ok_iff : s.verify = .ok () ↔ s.defect? = none := by
  unfold verify
  cases s.defect? <;> simp

theorem verify_eq_error_iff {f : Failure} :
    s.verify = .error f ↔ ∃ d, s.defect? = some d ∧ f = .defect d := by
  unfold verify
  cases s.defect? <;> simp [eq_comm]

end Schema
end VisitorGen
