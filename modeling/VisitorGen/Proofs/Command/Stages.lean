import VisitorGen.Proofs.Command.Files
import VisitorGen.Proofs.Command.Steps
import VisitorGen.Proofs.Integrity.Sound

/-! The stages at which a run may fail. Each stage is described by itself: what is wrong there
and how it is reported, whatever the other stages would say (`Stage.Fails`). A computation
settles some stages when it fails with the report of the first of them that fails and succeeds
only if none does (`Settles`). Settled stages are put together one after the other
(`Settles.bind`), so that it is enough to look at the stages one at a time. -/
namespace VisitorGen

inductive Stage where
  | mode
  | header
  | read
  | json
  | verification
  | write
deriving DecidableEq, Repr

/-- The stages in the order in which a run comes to them. -/
def Stage.all : List Stage := [.mode, .header, .read, .json, .verification, .write]

def Mode.names : Mode → List String
  | declaration => ["hpp", "declaration"]
  | definition => ["cpp", "definition"]

/-! ### What is wrong at a stage -/

inductive Action.ModeFails : Action → Failure → Prop
  | unknown {name : String} {header? : Option String} (h : ∀ mode : Mode, name ∉ mode.names) :
    ModeFails (.generate name header?) (.unknownMode name)

/-- Only a source asks for a header. -/
inductive Action.HeaderFails : Action → Failure → Prop
  | missing {name : String} {header? : Option String} (h : name ∈ Mode.definition.names)
    (hblank : ∀ header ∈ header?, Text.trim header = "") :
    HeaderFails (.generate name header?) .missingHeader

/-- The file cannot be read, or what it holds is no text. -/
inductive FileSystem.ReadFails {σ : Type} [FileSystem σ] (d : σ) (path : String) : Failure → Prop
  | refused {e : FileError} (h : FileSystem.read d path = .error e) : ReadFails d path (.file e)
  | notText {bytes : ByteArray} (h : FileSystem.read d path = .ok bytes)
    (htext : ∀ text : String, text.toUTF8 ≠ bytes) : ReadFails d path (.file .notText)

def Schema.VerificationFails (s : Schema) (f : Failure) : Prop :=
  ∃ defect, s.defect? = some defect ∧ f = .defect defect

/-- What is wrong at a stage of a command in a state of the files. -/
def Stage.Fails {σ : Type} [FileSystem σ] (c : Command) (d : σ) : Stage → Failure → Prop
  | mode, f => c.action.ModeFails f
  | header, f => c.action.HeaderFails f
  | read, f => ∃ path ∈ c.schema?, FileSystem.ReadFails d path f
  | json, f => ∃ path ∈ c.schema?, ∃ text e, FileSystem.Holds d path text ∧
      Schema.decoder.read text = .error e ∧ f = .json e
  | verification, f => ∃ path ∈ c.schema?, ∃ text s, FileSystem.Holds d path text ∧
      Schema.decoder.read text = .ok s ∧ s.VerificationFails f
  | write, f => ∃ path ∈ c.output?, ∃ e,
      (∀ content, FileSystem.write d path content = .error e) ∧ f = .file e

/-- What is wrong at a stage of an action on a schema at hand, which is neither read from a
file nor written to one. -/
def Stage.FailsOn (s : Schema) (action : Action) : Stage → Failure → Prop
  | mode, f => action.ModeFails f
  | header, f => action.HeaderFails f
  | verification, f => s.VerificationFails f
  | _, _ => False

/-! ### The first stage that fails -/

/-- The failure is that of the first of the stages that fails. -/
def Reports (fails : Stage → Failure → Prop) (stages : List Stage) (f : Failure) : Prop :=
  ∃ before stage after, stages = before ++ stage :: after ∧ fails stage f ∧
    ∀ earlier ∈ before, ∀ g, ¬ fails earlier g

/-- The computation fails with the report of the first of the stages that fails, and succeeds
only if none of them does. -/
structure Settles {α : Type} (fails : Stage → Failure → Prop) (stages : List Stage)
    (x : Except Failure α) : Prop where
  error_iff : ∀ f, x = .error f ↔ Reports fails stages f
  ok : ∀ a, x = .ok a → ∀ stage ∈ stages, ∀ f, ¬ fails stage f

section Settling

variable {α β : Type} {fails : Stage → Failure → Prop} {stage : Stage} {stages more : List Stage}
  {f : Failure}

theorem Reports.exists_fails (h : Reports fails stages f) : ∃ stage ∈ stages, fails stage f := by
  obtain ⟨before, stage, after, rfl, hfails, -⟩ := h
  exact ⟨stage, by simp, hfails⟩

theorem reports_append : Reports fails (stages ++ more) f ↔
    Reports fails stages f ∨ (∀ stage ∈ stages, ∀ g, ¬ fails stage g) ∧ Reports fails more f := by
  constructor
  · rintro ⟨before, stage, after, hsplit, hfails, hbefore⟩
    rcases List.append_eq_append_iff.1 hsplit with ⟨middle, rfl, rfl⟩ | ⟨middle, rfl, hmiddle⟩
    · refine Or.inr ⟨fun s hs => hbefore s (List.mem_append_left _ hs), middle, stage, after, rfl,
        hfails, fun s hs => hbefore s (List.mem_append_right _ hs)⟩
    · cases middle with
      | nil =>
        refine Or.inr ⟨by simpa using hbefore, [], stage, after, by simpa using hmiddle.symm, hfails,
          by simp⟩
      | cons first middle =>
        obtain ⟨rfl, -⟩ := List.cons.inj hmiddle
        exact Or.inl ⟨before, stage, middle, rfl, hfails, hbefore⟩
  · rintro (⟨before, stage, after, rfl, hfails, hbefore⟩ |
      ⟨hnone, before, stage, after, rfl, hfails, hbefore⟩)
    · exact ⟨before, stage, after ++ more, by simp, hfails, hbefore⟩
    · refine ⟨stages ++ before, stage, after, by simp, hfails, fun s hs => ?_⟩
      exact (List.mem_append.1 hs).elim (hnone s) (hbefore s)

/-- A computation that fails just as a stage does settles this stage. -/
theorem Settles.of_stage {x : Except Failure α} (h : ∀ f, x = .error f ↔ fails stage f) :
    Settles fails [stage] x where
  error_iff f := by
    rw [h]
    constructor
    · exact fun hf => ⟨[], stage, [], rfl, hf, by simp⟩
    · intro hf
      obtain ⟨s, hs, hf⟩ := hf.exists_fails
      exact List.mem_singleton.1 hs ▸ hf
  ok a hx s hs f hf := by
    have herror := (h f).2 (List.mem_singleton.1 hs ▸ hf)
    rw [hx] at herror
    cases herror

/-- Stages that cannot fail are settled by doing nothing. -/
theorem Settles.of_none (h : ∀ stage ∈ stages, ∀ f, ¬ fails stage f) (a : α) :
    Settles fails stages (.ok a) where
  error_iff f := by
    refine ⟨fun hf => (nomatch hf), fun hf => ?_⟩
    obtain ⟨s, hs, hf⟩ := hf.exists_fails
    exact absurd hf (h s hs f)
  ok _ _ := h

/-- The stages of a second computation come after those of the first. -/
theorem Settles.bind {x : Except Failure α} {k : α → Except Failure β}
    (hx : Settles fails stages x) (hk : ∀ a, x = .ok a → Settles fails more (k a)) :
    Settles fails (stages ++ more) (x >>= k) := by
  cases x with
  | error e =>
    have hreports := (hx.error_iff e).1 rfl
    obtain ⟨stage, hstage, hfails⟩ := hreports.exists_fails
    refine ⟨fun f => ?_, fun a ha => (nomatch ha)⟩
    rw [reports_append, ← hx.error_iff f]
    constructor
    · exact fun hf => Or.inl (by cases hf; rfl)
    · rintro (hf | ⟨hnone, -⟩)
      · cases hf
        rfl
      · exact absurd hfails (hnone stage hstage e)
  | ok a =>
    have hnone := hx.ok a rfl
    refine ⟨fun f => ?_, fun b hb stage hstage => ?_⟩
    · rw [reports_append, ← hx.error_iff f]
      constructor
      · exact fun hf => Or.inr ⟨hnone, ((hk a rfl).error_iff f).1 hf⟩
      · rintro (hf | ⟨-, hf⟩)
        · cases hf
        · exact ((hk a rfl).error_iff f).2 hf
    · exact (List.mem_append.1 hstage).elim (hnone stage) ((hk a rfl).ok b hb stage)

/-- What is made of a result settles nothing more. -/
theorem Settles.map {x : Except Failure α} (hx : Settles fails stages x) (k : α → β) :
    Settles fails stages (x >>= fun a => .ok (k a)) := by
  have hnone : ∀ a, Settles fails [] (.ok (k a) : Except Failure β) := fun a =>
    .of_none (by simp) (k a)
  have h := hx.bind fun a _ => hnone a
  rwa [List.append_nil] at h

end Settling

/-! ### The stages one by one -/

section Stages

variable {name : String} {header? : Option String} {f : Failure} {path : String}

theorem ofName_eq_ok_iff {mode : Mode} : Mode.ofName name = .ok mode ↔ name ∈ mode.names := by
  unfold Mode.ofName
  split_ifs with hdeclaration hdefinition
  · rcases hdeclaration with rfl | rfl <;> cases mode <;> simp [Mode.names]
  · rcases hdefinition with rfl | rfl <;> cases mode <;> simp [Mode.names]
  · cases mode <;> simp_all [Mode.names]

theorem ofName_eq_error_iff :
    Mode.ofName name = .error f ↔ (Action.generate name header?).ModeFails f := by
  constructor
  · intro h
    have hnone : ∀ mode : Mode, name ∉ mode.names := fun mode hmem => by
      rw [ofName_eq_ok_iff.2 hmem] at h
      cases h
    unfold Mode.ofName at h
    split_ifs at h
    cases h
    exact .unknown hnone
  · rintro ⟨hnone⟩
    have hdeclaration := hnone .declaration
    have hdefinition := hnone .definition
    simp only [Mode.names, List.mem_cons, List.not_mem_nil, or_false] at hdeclaration hdefinition
    rw [Mode.ofName, if_neg hdeclaration, if_neg hdefinition]

theorem select_eq_error_iff {mode : Mode} (hmode : Mode.ofName name = .ok mode) :
    Target.select mode header? = .error f ↔ (Action.generate name header?).HeaderFails f := by
  have hname := ofName_eq_ok_iff.1 hmode
  cases mode with
  | declaration =>
    refine ⟨fun h => (nomatch h), fun ⟨hdefinition, _⟩ => ?_⟩
    rw [ofName_eq_ok_iff.2 hdefinition] at hmode
    cases hmode
  | definition =>
    cases header? with
    | none =>
      refine ⟨fun h => ?_, fun ⟨_, _⟩ => rfl⟩
      cases h
      exact .missing hname (by simp)
    | some header =>
      by_cases hblank : Text.trim header = ""
      · rw [Target.select, if_pos (Text.isBlankText_iff.2 hblank)]
        refine ⟨fun h => ?_, fun ⟨_, _⟩ => rfl⟩
        cases h
        exact .missing hname (by simpa using hblank)
      · rw [Target.select, if_neg fun h => hblank (Text.isBlankText_iff.1 h)]
        exact ⟨fun h => (nomatch h), fun ⟨_, hall⟩ => absurd (hall header rfl) hblank⟩

/-! The text of a file is read in two steps that are one stage: its bytes, and what these say
in UTF-8. -/

theorem fromUTF8?_eq_some_iff {bytes : ByteArray} {text : String} :
    String.fromUTF8? bytes = some text ↔ text.toUTF8 = bytes := by
  unfold String.fromUTF8?
  split_ifs with hvalid
  · refine ⟨fun h => ?_, fun h => ?_⟩
    · cases h
      rfl
    · subst h
      rfl
  · refine ⟨fun h => (nomatch h), fun h => ?_⟩
    subst h
    exact absurd text.isValidUTF8 hvalid

theorem decodeFile_eq_ok_iff {bytes : ByteArray} {text : String} :
    Schema.decodeFile bytes = .ok text ↔ text.toUTF8 = bytes := by
  rw [← fromUTF8?_eq_some_iff, Schema.decodeFile]
  cases String.fromUTF8? bytes <;> simp

theorem decodeFile_eq_error_iff {bytes : ByteArray} : Schema.decodeFile bytes = .error f ↔
    (∀ text : String, text.toUTF8 ≠ bytes) ∧ f = .file .notText := by
  have hnone : String.fromUTF8? bytes = none ↔ ∀ text : String, text.toUTF8 ≠ bytes := by
    simp only [Option.eq_none_iff_forall_ne_some, ne_eq, fromUTF8?_eq_some_iff]
  rw [← hnone, Schema.decodeFile]
  cases String.fromUTF8? bytes <;> simp [eq_comm]

namespace FileSystem
variable {σ : Type} [FileSystem σ] {d : σ}

def readText (d : σ) (path : String) : Except Failure String :=
  (read d path).mapError .file >>= Schema.decodeFile

theorem readText_eq_ok_iff {text : String} :
    readText d path = .ok text ↔ Holds d path text := by
  unfold readText Holds
  cases read d path with
  | error e => exact ⟨fun h => (nomatch h), fun h => (nomatch h)⟩
  | ok bytes =>
    show Schema.decodeFile bytes = .ok text ↔ Except.ok bytes = Except.ok text.toUTF8
    rw [decodeFile_eq_ok_iff, Except.ok.injEq, eq_comm]

/-- A file holds one text at most. -/
theorem Holds.unique {text text' : String} (h : Holds d path text)
    (h' : Holds d path text') : text = text' := by
  rw [← readText_eq_ok_iff] at h h'
  exact Except.ok.inj (h.symm.trans h')

theorem readText_eq_error_iff : readText d path = .error f ↔ ReadFails d path f := by
  unfold readText
  cases hread : read d path with
  | error e =>
    constructor
    · intro h
      cases h
      exact .refused hread
    · rintro (⟨h⟩ | ⟨h, -⟩)
      · cases hread.symm.trans h
        rfl
      · cases hread.symm.trans h
  | ok bytes =>
    show Schema.decodeFile bytes = .error f ↔ _
    rw [decodeFile_eq_error_iff]
    constructor
    · rintro ⟨htext, rfl⟩
      exact .notText hread htext
    · rintro (⟨h⟩ | ⟨h, htext⟩)
      · cases hread.symm.trans h
      · cases hread.symm.trans h
        exact ⟨htext, rfl⟩

end FileSystem

theorem mapError_eq_error_iff {α ε ε' : Type} {x : Except ε α} {g : ε → ε'} {e' : ε'} :
    x.mapError g = .error e' ↔ ∃ e, x = .error e ∧ e' = g e := by
  cases x <;> simp [Except.mapError, eq_comm]

theorem mapError_eq_ok_iff {α ε ε' : Type} {x : Except ε α} {g : ε → ε'} {a : α} :
    x.mapError g = .ok a ↔ x = .ok a := by
  cases x <;> simp [Except.mapError]

end Stages

end VisitorGen
