import VisitorGen.Proofs.Command.Stages
import VisitorGen.Proofs.Command.Writing
import VisitorGen.Proofs.Json.Tokens

/-! A run is all or nothing. It comes to a text before it writes anything, so that a run that
fails leaves the files as they were, and one that succeeds has printed its text or put it in
one file. Which of the two it is, and which failure is reported, the stages decide
(`settles_outcome`). No stage stands for the rendering: a schema that was loaded is sound, and
a sound schema has both its documents. `runLine_all_or_nothing` puts this together. -/
namespace VisitorGen

/-- The schema that a command works on: the standard one, or the sound schema that its file
spells. -/
inductive FileSystem.Loads {σ : Type} [FileSystem σ] (d : σ) : Option String → Schema → Prop
  | standard : Loads d none .standard
  | file {path text : String} {s : Schema} (hholds : FileSystem.Holds d path text)
    (hread : Schema.decoder.read text = .ok s) (hsound : s.Sound) : Loads d (some path) s

/-- The text that an action makes of a schema. -/
inductive Action.Renders (s : Schema) : Action → String → Prop
  | header {name : String} {header? : Option String} (h : name ∈ Mode.declaration.names) :
    Renders s (.generate name header?) s.header.text
  | source {name header : String} (h : name ∈ Mode.definition.names)
    (hheader : Text.trim header ≠ "") :
    Renders s (.generate name (some header)) (s.source (Text.trim header)).text
  | stored : Renders s .dump (s.text ++ "\n")

section Emits
open FileSystem LawfulFileSystem

/-- The text is all that the run puts out: it is printed, or it is the new content of the file
that the output path leads to. Every other file stays as it was. -/
def Report.Emits {σ : Type} [FileSystem σ] [LawfulFileSystem σ] (r : Report σ) (d : σ) :
    (output? : Option String) → (text : String) → Prop
  | none, text => r.stdout = text ∧ r.directory = d
  | some path, text => r.stdout = "" ∧ Holds r.directory path text ∧ ∃ file,
      Leads d path file ∧ content? r.directory file = some text.toUTF8 ∧
      ∀ other, other ≠ file → content? r.directory other = content? d other

end Emits

namespace Command
open FileSystem (Holds Loads readText readText_eq_ok_iff readText_eq_error_iff)
open Json (bind_eq_ok)
open Schema (verify_eq_ok_iff)

variable {σ : Type} {c : Command} {d : σ} {s : Schema} {f : Failure}

/-! ### The target -/

theorem result_selectTarget (name : String) (header? : Option String) :
    (selectTarget name header?).result d =
      Mode.ofName name >>= fun mode => Target.select mode header? := by
  unfold selectTarget
  simp only [Step.result_bind, Step.result_ofResult, Step.result_log, Step.result_pure,
    Step.Keeps.after_eq, Step.keeps_ofResult]
  cases Mode.ofName name >>= fun mode => Target.select mode header? <;> rfl

theorem settles_target {fails : Stage → Failure → Prop} {name : String} {header? : Option String}
    (hmode : ∀ f, fails .mode f ↔ (Action.generate name header?).ModeFails f)
    (hheader : ∀ f, fails .header f ↔ (Action.generate name header?).HeaderFails f) :
    Settles fails [.mode, .header] (Mode.ofName name >>= fun mode => Target.select mode header?) :=
  Settles.bind (.of_stage fun f => ofName_eq_error_iff.trans (hmode f).symm) fun _ hok =>
    .of_stage fun f => (select_eq_error_iff hok).trans (hheader f).symm

/-! ### The document -/

theorem generate_of_sound (h : s.Sound) (target : Target) :
    target.generate s = .ok (target.document s) := by
  rw [Target.generate, verify_eq_ok_iff.2 h]
  rfl

theorem result_generateText (target : Target) (s : Schema) : (generateText target s).result d =
    s.verify >>= fun _ => target.generate s >>= fun document => .ok document.text := by
  unfold generateText
  simp only [Step.result_bind, Step.result_ofResult, Step.result_log, Step.result_pure,
    Step.Keeps.after_eq, Step.keeps_ofResult, Step.keeps_log]
  rfl

theorem result_generateText_of_sound (h : s.Sound) (target : Target) :
    (generateText target s).result d = .ok (target.document s).text := by
  rw [result_generateText, verify_eq_ok_iff.2 h, generate_of_sound h]
  rfl

/-! ### The schema -/

theorem standard_sound : Schema.standard.Sound := by decide +kernel

variable [FileSystem σ]

theorem result_loadSchema (path : String) :
    (loadSchema (some path)).result d = readText d path >>= fun text =>
      (Schema.decoder.read text).mapError .json >>= fun s => s.verify >>= fun _ => .ok s := by
  have hload : ∀ bytes, Schema.load bytes = Schema.decodeFile bytes >>= fun text =>
      (Schema.decoder.read text).mapError .json >>= fun s => s.verify >>= fun _ => .ok s :=
    fun _ => rfl
  unfold loadSchema readText
  simp only [Step.result_bind, Step.result_ofResult, Step.result_log, Step.result_pure,
    Step.result_read, Step.Keeps.after_eq, Step.keeps_ofResult, Step.keeps_log, Step.keeps_read,
    hload, bind_assoc]
  rfl

theorem settles_load : Settles (Stage.Fails c d) [.read, .json, .verification]
    ((loadSchema c.schema?).result d) := by
  cases hschema : c.schema? with
  | none =>
    refine Settles.of_none (fun stage hstage f hfails => ?_) Schema.standard
    simp only [List.mem_cons, List.not_mem_nil, or_false] at hstage
    rcases hstage with rfl | rfl | rfl <;> simp [Stage.Fails, hschema] at hfails
  | some path =>
    rw [result_loadSchema]
    have hread : Settles (Stage.Fails c d) [.read] (readText d path) := .of_stage fun f => by
      simp [Stage.Fails, hschema, readText_eq_error_iff]
    refine hread.bind fun text htext => ?_
    have hholds := readText_eq_ok_iff.1 htext
    have hjson : Settles (Stage.Fails c d) [.json]
        ((Schema.decoder.read text).mapError .json) := .of_stage fun f => by
      rw [mapError_eq_error_iff]
      simp only [Stage.Fails, hschema, Option.mem_def, Option.some.injEq, exists_eq_left']
      constructor
      · rintro ⟨e, he, rfl⟩
        exact ⟨text, e, hholds, he, rfl⟩
      · rintro ⟨text', e, hholds', he, rfl⟩
        exact ⟨e, hholds'.unique hholds ▸ he, rfl⟩
    refine hjson.bind fun s hs => Settles.map (.of_stage fun f => ?_) fun _ => s
    rw [mapError_eq_ok_iff] at hs
    rw [Schema.verify_eq_error_iff]
    simp only [Stage.Fails, hschema, Option.mem_def, Option.some.injEq, exists_eq_left']
    constructor
    · exact fun hdefect => ⟨text, s, hholds, hs, hdefect⟩
    · rintro ⟨text', s', hholds', hs', hdefect⟩
      rw [hholds'.unique hholds, hs] at hs'
      cases hs'
      exact hdefect

theorem result_loadSchema_eq_ok_iff {schema? : Option String} :
    (loadSchema schema?).result d = .ok s ↔ Loads d schema? s := by
  cases schema? with
  | none =>
    constructor
    · intro h
      cases h
      exact .standard
    · rintro ⟨⟩
      rfl
  | some path =>
    rw [result_loadSchema]
    constructor
    · intro h
      obtain ⟨text, htext, h⟩ := bind_eq_ok.1 h
      obtain ⟨s', hread, h⟩ := bind_eq_ok.1 h
      obtain ⟨⟨⟩, hverify, h⟩ := bind_eq_ok.1 h
      cases h
      exact .file (readText_eq_ok_iff.1 htext) (mapError_eq_ok_iff.1 hread)
        (Schema.sound_of_verify hverify)
    · rintro (_ | ⟨hholds, hread, hsound⟩)
      rw [readText_eq_ok_iff.2 hholds]
      show Except.mapError Failure.json (Schema.decoder.read _) >>= _ = _
      rw [hread]
      show s.verify >>= _ = _
      rw [verify_eq_ok_iff.2 hsound]
      rfl

/-- A schema that was loaded has no defect, nor has the standard one. -/
theorem sound_of_loads {schema? : Option String} (h : Loads d schema? s) : s.Sound := by
  cases h with
  | standard => exact standard_sound
  | file _ _ hsound => exact hsound

/-! ### The text -/

/-- A target that was selected makes the document that its mode asks for. -/
theorem renders_of_target {name : String} {header? : Option String} {target : Target}
    (h : (Mode.ofName name >>= fun mode => Target.select mode header?) = .ok target) :
    (Action.generate name header?).Renders s (target.document s).text := by
  obtain ⟨mode, hmode, hselect⟩ := bind_eq_ok.1 h
  rw [ofName_eq_ok_iff] at hmode
  cases mode with
  | declaration =>
    cases hselect
    exact .header hmode
  | definition =>
    cases header? with
    | none => cases hselect
    | some header =>
      rw [Target.select] at hselect
      split_ifs at hselect with hblank
      cases hselect
      exact .source hmode fun htrim => hblank (Text.isBlankText_iff.2 htrim)

theorem result_outputText_generate {name : String} {header? : Option String}
    (haction : c.action = .generate name header?) : c.outputText.result d =
      (Mode.ofName name >>= fun mode => Target.select mode header?) >>= fun target =>
        (loadSchema c.schema?).result d >>= fun s => (generateText target s).result d := by
  rw [outputText, haction]
  simp only [Step.result_bind, Step.Keeps.after_eq, keeps_selectTarget, keeps_loadSchema,
    result_selectTarget]

theorem result_outputText_dump (haction : c.action = .dump) : c.outputText.result d =
    (loadSchema c.schema?).result d >>= fun s => .ok (s.text ++ "\n") := by
  rw [outputText, haction]
  simp only [Step.result_bind, Step.result_pure]

theorem settles_outputText : Settles (Stage.Fails c d)
    [.mode, .header, .read, .json, .verification] (c.outputText.result d) := by
  cases haction : c.action with
  | generate name header? =>
    have htarget : Settles (Stage.Fails c d) [.mode, .header]
        (Mode.ofName name >>= fun mode => Target.select mode header?) :=
      settles_target (fun f => by rw [Stage.Fails, haction]) fun f => by rw [Stage.Fails, haction]
    rw [result_outputText_generate haction]
    refine htarget.bind fun target _ => settles_load.bind fun s hs => ?_
    rw [result_generateText_of_sound (sound_of_loads (result_loadSchema_eq_ok_iff.1 hs))]
    exact .of_none (by simp) _
  | dump =>
    have htarget : Settles (Stage.Fails c d) [.mode, .header] (.ok () : Except Failure Unit) := by
      refine .of_none (fun stage hstage f hfails => ?_) ()
      simp only [List.mem_cons, List.not_mem_nil, or_false] at hstage
      rcases hstage with rfl | rfl <;> (rw [Stage.Fails, haction] at hfails; cases hfails)
    have htext := htarget.bind fun _ _ => settles_load.map fun s => s.text ++ "\n"
    rw [result_outputText_dump haction]
    exact htext

/-- The text of a run is made of the schema that was loaded. -/
theorem renders_of_outputText {text : String} (h : c.outputText.result d = .ok text) :
    ∃ s, Loads d c.schema? s ∧ c.action.Renders s text := by
  cases haction : c.action with
  | generate name header? =>
    rw [result_outputText_generate haction] at h
    obtain ⟨target, htarget, h⟩ := bind_eq_ok.1 h
    obtain ⟨s, hs, htext⟩ := bind_eq_ok.1 h
    rw [result_loadSchema_eq_ok_iff] at hs
    rw [result_generateText_of_sound (sound_of_loads hs)] at htext
    cases htext
    exact ⟨s, hs, renders_of_target htarget⟩
  | dump =>
    rw [result_outputText_dump haction] at h
    obtain ⟨s, hs, htext⟩ := bind_eq_ok.1 h
    cases htext
    exact ⟨s, result_loadSchema_eq_ok_iff.1 hs, .stored⟩

/-! ### Runs -/

/-- What a run of the command shows, and the state that it leaves behind. -/
def run (c : Command) (d : σ) : Report σ := ⟨.ofLogged (c.steps.logged d), c.steps.after d⟩

theorem runLine_eq_run {args : List String} (hargs : ofArguments? args = some c) (d : σ) :
    runLine args d = c.run d := by
  rw [runLine, answer, hargs]
  rfl

theorem ofLogged_of_error {logged : Logged String} (h : logged.result = .error f) :
    Answer.ofLogged logged = ⟨1, "", some f, logged.events⟩ := by
  rw [Answer.ofLogged, h]

theorem ofLogged_of_ok {logged : Logged String} {stdout : String} (h : logged.result = .ok stdout) :
    Answer.ofLogged logged = ⟨0, stdout, none, logged.events⟩ := by
  rw [Answer.ofLogged, h]

/-- A run leaves what it comes to, or with a failure nothing. -/
theorem run_cases (c : Command) (d : σ) :
    (∃ f events, c.steps.outcome d = .error f ∧ c.run d = ⟨⟨1, "", some f, events⟩, d⟩) ∨
      ∃ stdout after events, c.steps.outcome d = .ok (stdout, after) ∧
        c.run d = ⟨⟨0, stdout, none, events⟩, after⟩ := by
  rw [Step.outcome]
  cases hresult : c.steps.result d with
  | error f =>
    refine Or.inl ⟨f, (c.steps.logged d).events, rfl, ?_⟩
    rw [run, ofLogged_of_error hresult, after_steps_of_error hresult]
  | ok stdout =>
    refine Or.inr ⟨stdout, c.steps.after d, (c.steps.logged d).events, rfl, ?_⟩
    rw [run, ofLogged_of_ok hresult]

theorem run_of_error (h : c.steps.outcome d = .error f) :
    ∃ events, c.run d = ⟨⟨1, "", some f, events⟩, d⟩ := by
  rcases run_cases c d with ⟨g, events, houtcome, hrun⟩ | ⟨stdout, after, events, houtcome, -⟩
  · cases h.symm.trans houtcome
    exact ⟨events, hrun⟩
  · cases h.symm.trans houtcome

theorem run_of_ok {stdout : String} {after : σ} (h : c.steps.outcome d = .ok (stdout, after)) :
    ∃ events, c.run d = ⟨⟨0, stdout, none, events⟩, after⟩ := by
  rcases run_cases c d with ⟨g, events, houtcome, -⟩ | ⟨stdout, after, events, houtcome, hrun⟩
  · cases h.symm.trans houtcome
  · cases h.symm.trans houtcome
    exact ⟨events, hrun⟩

theorem failure?_run : (c.run d).failure? = some f ↔ c.steps.outcome d = .error f := by
  rcases run_cases c d with ⟨g, events, houtcome, hrun⟩ | ⟨stdout, after, events, houtcome, hrun⟩
  · rw [houtcome, hrun]
    simp
  · rw [houtcome, hrun]
    simp

theorem exitCode_run : (c.run d).exitCode = 0 ↔ (c.run d).failure? = none := by
  rcases run_cases c d with ⟨g, events, -, hrun⟩ | ⟨stdout, after, events, -, hrun⟩ <;>
    simp [hrun]

/-- A run that succeeds has come to a text and put it out. -/
theorem exists_text_of_run (h : (c.run d).failure? = none) : ∃ text,
    c.outputText.result d = .ok text ∧
      (emit text c.output?).outcome d = .ok ((c.run d).stdout, (c.run d).directory) := by
  rcases run_cases c d with ⟨g, events, -, hrun⟩ | ⟨stdout, after, events, houtcome, hrun⟩
  · rw [hrun] at h
    cases h
  · rw [outcome_steps] at houtcome
    rw [hrun]
    exact bind_eq_ok.1 houtcome

/-! ### The write -/

variable [LawfulFileSystem σ]

theorem settles_outcome : Settles (Stage.Fails c d) Stage.all (c.steps.outcome d) := by
  rw [outcome_steps]
  refine settles_outputText.bind fun text _ => ?_
  show Settles (Stage.Fails c d) [.write] _
  cases houtput : c.output? with
  | none =>
    refine .of_none (fun stage hstage f hfails => ?_) _
    rw [List.mem_singleton.1 hstage] at hfails
    simp [Stage.Fails, houtput] at hfails
  | some path =>
    rw [outcome_emit_some]
    refine Settles.map (.of_stage fun f => ?_) fun after => ("", after)
    rw [mapError_eq_error_iff]
    simp only [Stage.Fails, houtput, Option.mem_def, Option.some.injEq, exists_eq_left']
    refine exists_congr fun e => and_congr_left' ⟨fun h content => ?_, fun h => h _⟩
    exact LawfulFileSystem.write_eq_error h content

theorem emits_run (h : (c.run d).failure? = none) : ∃ s text,
    Loads d c.schema? s ∧ c.action.Renders s text ∧ (c.run d).Emits d c.output? text := by
  obtain ⟨text, htext, hemit⟩ := exists_text_of_run h
  obtain ⟨s, hloads, hrenders⟩ := renders_of_outputText htext
  refine ⟨s, text, hloads, hrenders, ?_⟩
  cases houtput : c.output? with
  | none =>
    rw [houtput, outcome_emit_none, Except.ok.injEq, Prod.mk.injEq] at hemit
    exact ⟨hemit.1.symm, hemit.2.symm⟩
  | some path =>
    rw [houtput, outcome_emit_some_eq_ok_iff] at hemit
    obtain ⟨hstdout, hwrite⟩ := hemit
    exact ⟨hstdout, FileSystem.read_write hwrite, LawfulFileSystem.write_eq_ok hwrite⟩

/-- Once the mode, the header and the schema are had, nothing can fail but the write. -/
theorem write_fails_of_loads (hloads : Loads d c.schema? s) (hmode : ∀ f, ¬ Stage.mode.Fails c d f)
    (hheader : ∀ f, ¬ Stage.header.Fails c d f) (h : (c.run d).failure? = some f) :
    Stage.write.Fails c d f := by
  have hnone := settles_load.ok s (result_loadSchema_eq_ok_iff.2 hloads)
  obtain ⟨before, stage, after, -, hfails, -⟩ :=
    (settles_outcome.error_iff f).1 (failure?_run.1 h)
  cases stage with
  | mode => exact absurd hfails (hmode f)
  | header => exact absurd hfails (hheader f)
  | read => exact absurd hfails (hnone .read (by simp) f)
  | json => exact absurd hfails (hnone .json (by simp) f)
  | verification => exact absurd hfails (hnone .verification (by simp) f)
  | write => exact hfails

/-- On a schema at hand the order is that of a run: the mode, the header, the verification. -/
theorem settles_generate (s : Schema) (name : String) (header? : Option String) :
    Settles (Stage.FailsOn s (.generate name header?)) [.mode, .header, .verification]
      (Mode.ofName name >>= fun mode => s.generate mode header?) := by
  have htarget : Settles (Stage.FailsOn s (.generate name header?)) [.mode, .header]
      (Mode.ofName name >>= fun mode => Target.select mode header?) :=
    settles_target (fun _ => Iff.rfl) fun _ => Iff.rfl
  have hverify : Settles (Stage.FailsOn s (.generate name header?)) [.verification] s.verify :=
    .of_stage fun f => Schema.verify_eq_error_iff
  have hdocument := htarget.bind fun target _ => hverify.map fun _ => target.document s
  have hsame : (Mode.ofName name >>= fun mode => s.generate mode header?) =
      (Mode.ofName name >>= fun mode => Target.select mode header?) >>= fun target =>
        s.verify >>= fun _ => .ok (target.document s) := by cases Mode.ofName name <;> rfl
  rw [hsame]
  exact hdocument

end Command

/-- What a run of a command owes. -/
structure AllOrNothing {σ : Type} [FileSystem σ] [LawfulFileSystem σ] (c : Command) (d : σ)
    (r : Report σ) : Prop where
  /-- A run that fails reports the first stage that fails, whatever the later ones would say. -/
  reports : ∀ f, r.failure? = some f ↔ Reports (Stage.Fails c d) Stage.all f
  failed : ∀ f, r.failure? = some f → r.exitCode = 1 ∧ r.stdout = "" ∧ r.directory = d
  succeeded : r.failure? = none → r.exitCode = 0 ∧ ∃ s text,
    FileSystem.Loads d c.schema? s ∧ c.action.Renders s text ∧ r.Emits d c.output? text
  /-- A schema that was loaded has both its documents. -/
  rendered : ∀ s, FileSystem.Loads d c.schema? s → ∀ target : Target,
    target.generate s = .ok (target.document s)
  written : ∀ s, FileSystem.Loads d c.schema? s → (∀ f, ¬ Stage.mode.Fails c d f) →
    (∀ f, ¬ Stage.header.Fails c d f) → ∀ f, r.failure? = some f → Stage.write.Fails c d f

namespace Command

/-- A run prints or writes all of its text, or it fails at the first stage that can and leaves
no trace. On a schema at hand the document fails at the first stage that can, too. -/
theorem runLine_all_or_nothing {σ : Type} [FileSystem σ] [LawfulFileSystem σ]
    {args : List String} {c : Command} (hargs : ofArguments? args = some c) (d : σ) :
    AllOrNothing c d (runLine args d) ∧
      ∀ (s : Schema) (name : String) (header? : Option String) (f : Failure),
        (Mode.ofName name >>= fun mode => s.generate mode header?) = .error f ↔
          Reports (Stage.FailsOn s (.generate name header?)) [.mode, .header, .verification] f := by
  rw [runLine_eq_run hargs]
  refine ⟨⟨fun f => ?_, fun f hf => ?_, fun hf => ⟨exitCode_run.2 hf, emits_run hf⟩, fun s hs => ?_,
    fun s hs hmode hheader f hf => ?_⟩,
    fun s name header? f => (settles_generate s name header?).error_iff f⟩
  · rw [failure?_run]
    exact settles_outcome.error_iff f
  · rcases run_cases c d with ⟨g, events, -, hfailed⟩ | ⟨stdout, after, events, -, hdone⟩
    · rw [hfailed]
      exact ⟨rfl, rfl, rfl⟩
    · rw [hdone] at hf
      cases hf
  · exact generate_of_sound (sound_of_loads hs)
  · exact write_fails_of_loads hs hmode hheader hf

/-! A file that spells its schema otherwise than it is written: the includes are missing, and a kind
has a null for no parent and a member that means nothing. -/

def looseText : String :=
  "\x7b\"entries\":[\x7b\"x\":[1],\"parent\":null,\"name\":\"Node\",\"kind\":\"abstract\"\x7d]\x7d"

def looseFile : Directory := ⟨[("ast.json", looseText.toUTF8)]⟩

def nodeOnly : Schema := ⟨[], [.ofAbstract (.root "Node")]⟩

theorem looseFile_loads : FileSystem.Loads looseFile (some "ast.json") nodeOnly :=
  .file (show FileSystem.Holds looseFile "ast.json" looseText from rfl) rfl (by decide)

/-- A header takes the place of the schema that it is made of, and a mode that is unknown is
reported before the file that is missing. -/
theorem looseFile_all_or_nothing :
    (∃ args r, ofArguments? args =
        some ⟨.generate "hpp" none, some "ast.json", some "ast.json"⟩ ∧
      runLine args looseFile = r ∧ r.exitCode = 0 ∧ r.stdout = "" ∧
      FileSystem.Holds r.directory "ast.json" nodeOnly.header.text) ∧
    ∃ args r, ofArguments? args =
        some ⟨.generate "java" none, some "missing.json", some "ast.json"⟩ ∧
      runLine args looseFile = r ∧ r.failure? = some (.unknownMode "java") ∧ r.stdout = "" ∧
      r.directory = looseFile := by
  have hover : ofArguments? ["generate", "hpp", "-s", "ast.json", "-o", "ast.json"] =
      some ⟨.generate "hpp" none, some "ast.json", some "ast.json"⟩ := by decide
  have hjava : ofArguments? ["generate", "java", "-s", "missing.json", "-o", "ast.json"] =
      some ⟨.generate "java" none, some "missing.json", some "ast.json"⟩ := by decide
  constructor
  · obtain ⟨hrun, -⟩ := runLine_all_or_nothing hover looseFile
    have hnone : (runLine ["generate", "hpp", "-s", "ast.json", "-o", "ast.json"]
        looseFile).failure? = none := by
      refine Option.eq_none_iff_forall_ne_some.2 fun f hf => ?_
      have hmode : ∀ f, ¬ Action.ModeFails (.generate "hpp" none) f :=
        fun f ⟨h⟩ => h .declaration (by decide)
      have hheader : ∀ f, ¬ Action.HeaderFails (.generate "hpp" none) f :=
        fun f ⟨h, _⟩ => absurd h (by decide)
      obtain ⟨path, hpath, e, hrefused, -⟩ := hrun.written _ looseFile_loads hmode hheader f hf
      cases hpath
      cases hrefused .empty
    obtain ⟨hexit, s, text, hloads, hrenders, hstdout, hholds, -⟩ := hrun.succeeded hnone
    cases (result_loadSchema_eq_ok_iff.2 hloads).symm.trans
      (result_loadSchema_eq_ok_iff.2 looseFile_loads)
    cases hrenders
    exact ⟨_, _, hover, rfl, hexit, hstdout, hholds⟩
  · obtain ⟨hrun, -⟩ := runLine_all_or_nothing hjava looseFile
    have hnone : ∀ mode : Mode, "java" ∉ mode.names := fun mode => by cases mode <;> decide
    have hfailed := (hrun.reports _).2 ⟨[], .mode, _, rfl, .unknown hnone, by simp⟩
    exact ⟨_, _, hjava, rfl, hfailed, (hrun.failed _ hfailed).2⟩

end Command
end VisitorGen
