import VisitorGen.Command.Run

/-! What the steps of a run come to in a state of the files. Of a step it is known what it comes to,
which events aside is a result or a failure (`Step.result`), and which state it leaves
(`Step.after`); both together are its outcome, and outcomes are put together as the steps are
(`Step.outcome_bind`). No step but the write changes anything (`Step.Keeps`), and since it comes
last, a run that fails leaves the files as they were (`Command.after_steps_of_error`). -/
namespace VisitorGen

namespace Step
variable {σ α β : Type}

def logged (x : Step (StateM σ) α) (d : σ) : Logged α := (x.run.run d).1

/-- What a step comes to in a state of the files. -/
def result (x : Step (StateM σ) α) (d : σ) : Except Failure α := (x.logged d).result

/-- The state that a step leaves. -/
def after (x : Step (StateM σ) α) (d : σ) : σ := (x.run.run d).2

def outcome (x : Step (StateM σ) α) (d : σ) : Except Failure (α × σ) :=
  x.result d >>= fun a => .ok (a, x.after d)

/-- The step leaves every state as it was. -/
def Keeps (x : Step (StateM σ) α) : Prop := ∀ d, x.after d = d

variable {x : Step (StateM σ) α} {f : α → Step (StateM σ) β} {d : σ}

@[simp] theorem Keeps.after_eq (h : x.Keeps) (d : σ) : x.after d = d := h d

/-! ### One step -/

@[simp] theorem result_pure (a : α) : (pure a : Step (StateM σ) α).result d = .ok a := rfl

@[simp] theorem result_ofResult (r : Except Failure α) :
    (ofResult r : Step (StateM σ) α).result d = r := rfl

@[simp] theorem result_log (e : Event) : (log e : Step (StateM σ) Unit).result d = .ok () := rfl

@[simp] theorem keeps_pure (a : α) : (pure a : Step (StateM σ) α).Keeps := fun _ => rfl

@[simp] theorem keeps_ofResult (r : Except Failure α) :
    (ofResult r : Step (StateM σ) α).Keeps := fun _ => rfl

@[simp] theorem keeps_log (e : Event) : (log e : Step (StateM σ) Unit).Keeps := fun _ => rfl

section Files
variable [FileSystem σ] {path : String} {content : ByteArray}

@[simp] theorem result_read : (ask (FileAccess.read path) : Step (StateM σ) ByteArray).result d =
    (FileSystem.read d path).mapError .file := rfl

@[simp] theorem keeps_read :
    (ask (FileAccess.read path) : Step (StateM σ) ByteArray).Keeps := fun _ => rfl

theorem run_write : (ask (FileAccess.write path content) : Step (StateM σ) Unit).run.run d =
    match FileSystem.write d path content with
    | .error e => (⟨[], .error (.file e)⟩, d)
    | .ok after => (⟨[], .ok ()⟩, after) := by
  have hwrite : (FileAccess.write path content : StateM σ (Except FileError Unit)).run d =
      match FileSystem.write d path content with
      | .error e => (.error e, d)
      | .ok after => (.ok (), after) := rfl
  have hask : (ask (FileAccess.write path content) : Step (StateM σ) Unit).run.run d =
      Prod.map (fun r => ⟨[], r.mapError .file⟩) id
        ((FileAccess.write path content : StateM σ (Except FileError Unit)).run d) := rfl
  rw [hask, hwrite]
  cases FileSystem.write d path content <;> rfl

theorem outcome_write : (ask (FileAccess.write path content) : Step (StateM σ) Unit).outcome d =
    (FileSystem.write d path content).mapError .file >>= fun after => .ok ((), after) := by
  unfold outcome result logged after
  rw [run_write]
  cases FileSystem.write d path content <;> rfl

theorem after_write_of_error {f : Failure}
    (h : (ask (FileAccess.write path content) : Step (StateM σ) Unit).result d = .error f) :
    (ask (FileAccess.write path content) : Step (StateM σ) Unit).after d = d := by
  unfold result logged at h
  unfold after
  rw [run_write] at h ⊢
  cases hwrite : FileSystem.write d path content with
  | error e => rfl
  | ok after =>
    rw [hwrite] at h
    cases h

end Files

/-! ### Steps in sequence -/

theorem run_bind (x : Step (StateM σ) α) (f : α → Step (StateM σ) β) (d : σ) :
    (x >>= f).run.run d =
      match x.result d with
      | .error failure => (⟨(x.logged d).events, .error failure⟩, x.after d)
      | .ok a =>
        (⟨(x.logged d).events ++ ((f a).logged (x.after d)).events, (f a).result (x.after d)⟩,
          (f a).after (x.after d)) := by
  have hrun : (x >>= f).run.run d = StateT.run (match x.result d with
      | .error failure => return ⟨(x.logged d).events, .error failure⟩
      | .ok a => do
        let second ← (f a).run
        return ⟨(x.logged d).events ++ second.events, second.result⟩) (x.after d) := rfl
  rw [hrun]
  cases x.result d <;> rfl

theorem result_bind (x : Step (StateM σ) α) (f : α → Step (StateM σ) β) (d : σ) :
    (x >>= f).result d = x.result d >>= fun a => (f a).result (x.after d) := by
  rw [result, logged, run_bind]
  cases x.result d <;> rfl

theorem after_bind (x : Step (StateM σ) α) (f : α → Step (StateM σ) β) (d : σ) :
    (x >>= f).after d =
      match x.result d with
      | .error _ => x.after d
      | .ok a => (f a).after (x.after d) := by
  rw [after, run_bind]
  cases x.result d <;> rfl

theorem outcome_bind (x : Step (StateM σ) α) (f : α → Step (StateM σ) β) (d : σ) :
    (x >>= f).outcome d = x.outcome d >>= fun (a, after) => (f a).outcome after := by
  unfold outcome
  rw [result_bind, after_bind]
  cases x.result d <;> rfl

theorem Keeps.result_bind (h : x.Keeps) (f : α → Step (StateM σ) β) (d : σ) :
    (x >>= f).result d = x.result d >>= fun a => (f a).result d := by
  rw [Step.result_bind, h]

theorem Keeps.bind (h : x.Keeps) (hf : ∀ a, (f a).Keeps) : (x >>= f).Keeps := fun d => by
  rw [after_bind, h]
  split
  · rfl
  · exact hf _ d

theorem Keeps.outcome (h : x.Keeps) (d : σ) :
    x.outcome d = x.result d >>= fun a => .ok (a, d) := by
  rw [Step.outcome, h]

end Step

/-! ### The steps of a command -/

namespace Command
open Step
variable {σ : Type} {c : Command} {d : σ}

theorem keeps_selectTarget (mode : String) (header? : Option String) :
    (selectTarget mode header? : Step (StateM σ) Target).Keeps :=
  (keeps_ofResult _).bind fun _ => (keeps_log _).bind fun _ => keeps_pure _

theorem keeps_generateText (target : Target) (s : Schema) :
    (generateText target s : Step (StateM σ) String).Keeps :=
  (keeps_ofResult _).bind fun _ => (keeps_log _).bind fun _ => (keeps_ofResult _).bind fun _ =>
    (keeps_log _).bind fun _ => keeps_pure _

variable [FileSystem σ]

theorem keeps_loadSchema (schema? : Option String) :
    (loadSchema schema? : Step (StateM σ) Schema).Keeps := by
  cases schema? with
  | none => exact keeps_pure _
  | some path =>
    exact (keeps_log _).bind fun _ => keeps_read.bind fun _ => (keeps_ofResult _).bind fun _ =>
      (keeps_log _).bind fun _ => keeps_pure _

theorem keeps_outputText (c : Command) : (c.outputText : Step (StateM σ) String).Keeps := by
  unfold outputText
  split
  · exact (keeps_selectTarget _ _).bind fun _ => (keeps_loadSchema _).bind fun _ =>
      keeps_generateText _ _
  · exact (keeps_loadSchema _).bind fun _ => keeps_pure _

theorem outcome_emit_none (text : String) (d : σ) :
    (emit text none).outcome d = .ok (text, d) := rfl

theorem outcome_emit_some (text path : String) (d : σ) : (emit text (some path)).outcome d =
    (FileSystem.write d path text.toUTF8).mapError .file >>= fun after => .ok ("", after) := by
  rw [emit, outcome_bind, outcome_write]
  cases FileSystem.write d path text.toUTF8 <;> rfl

theorem outcome_emit_some_eq_ok_iff {text path stdout : String} {after : σ} :
    (emit text (some path)).outcome d = .ok (stdout, after) ↔
      stdout = "" ∧ FileSystem.write d path text.toUTF8 = .ok after := by
  rw [outcome_emit_some]
  cases FileSystem.write d path text.toUTF8 with
  | error e => exact ⟨fun h => (nomatch h), fun h => (nomatch h.2)⟩
  | ok written =>
    constructor
    · intro h
      cases h
      exact ⟨rfl, rfl⟩
    · rintro ⟨rfl, h⟩
      cases h
      rfl

/-- Nothing of a run is seen outside before its text is there. -/
theorem outcome_steps (c : Command) (d : σ) : c.steps.outcome d =
    c.outputText.result d >>= fun text => (emit text c.output?).outcome d := by
  rw [steps, outcome_bind, (keeps_outputText c).outcome]
  cases c.outputText.result d <;> rfl

theorem outcome_steps_of_print {text : String} (htext : c.outputText.result d = .ok text)
    (houtput : c.output? = none) : c.steps.outcome d = .ok (text, d) := by
  rw [outcome_steps, htext, houtput]
  rfl

theorem after_emit_of_error {text : String} {output? : Option String} {f : Failure}
    (h : (emit text output? : Step (StateM σ) String).result d = .error f) :
    (emit text output? : Step (StateM σ) String).after d = d := by
  cases output? with
  | none => rfl
  | some path =>
    rw [emit, result_bind] at h
    rw [emit, after_bind]
    split
    · exact after_write_of_error ‹_›
    · rename_i hwrite
      rw [hwrite] at h
      cases h

/-- A run that fails leaves the files as they were. -/
theorem after_steps_of_error {f : Failure} (h : c.steps.result d = .error f) :
    c.steps.after d = d := by
  rw [steps, (keeps_outputText c).result_bind] at h
  rw [steps, after_bind, keeps_outputText c]
  split
  · rfl
  · rename_i text htext
    rw [htext] at h
    exact after_emit_of_error h

end Command
end VisitorGen
