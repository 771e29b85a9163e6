import VisitorGen.Proofs.Command.Outcome
import VisitorGen.Proofs.Schema.RoundTrip

/-! A dumped schema stands for the schema. Files that spell one schema may differ in their bytes;
a dump gives it the one spelling that is written. `dump_reloads` says that nothing else changes:
the file that was written loads as the schema that was dumped, a dump of it prints its own bytes,
and what is generated from it, or how that fails, is what was to be had from the schema before.
It makes no difference where the schema came from, another file, the file that is written to or
no file at all. -/
namespace VisitorGen

/-- The two runs look the same from outside, and where both wrote to the output path, it leads to
the same text. -/
structure Report.Like {σ : Type} [FileSystem σ] (r r' : Report σ) (output? : Option String) :
    Prop where
  exitCode : r.exitCode = r'.exitCode
  stdout : r.stdout = r'.stdout
  failure : r.failure? = r'.failure?
  written : r.failure? = none → ∀ path ∈ output?, ∃ text,
    FileSystem.Holds r.directory path text ∧ FileSystem.Holds r'.directory path text

namespace Command
open FileSystem (SameFiles Holds Loads read_of_write read_write sameFiles_of_write)
open Json (bind_eq_ok)

variable {σ : Type} [FileSystem σ] {c c' : Command} {d d' after : σ} {s : Schema}
  {schema? : Option String} {path : String}

/-! ### What a dump leaves -/

theorem result_outputText_of_dump (hload : (loadSchema schema?).result d = .ok s)
    (output? : Option String) :
    (Command.mk .dump schema? output?).outputText.result d = .ok (s.text ++ "\n") := by
  rw [result_outputText_dump rfl, hload]
  rfl

/-- What is generated depends on the schema and not on where it was loaded from. -/
theorem result_outputText_congr {mode : String} {header? : Option String}
    (haction : c.action = .generate mode header?) (haction' : c'.action = .generate mode header?)
    (hload : (loadSchema c.schema?).result d = .ok s)
    (hload' : (loadSchema c'.schema?).result d' = .ok s) :
    c.outputText.result d = c'.outputText.result d' := by
  rw [result_outputText_generate haction, result_outputText_generate haction', hload, hload']
  simp only [result_generateText]

/-- A dump to a path that succeeds is the write of the text of the schema, as one line more. -/
theorem write_of_dump (hload : (loadSchema schema?).result d = .ok s)
    (hok : ((Command.mk .dump schema? (some path)).run d).exitCode = 0) :
    FileSystem.write d path (s.text ++ "\n").toUTF8 =
      .ok ((Command.mk .dump schema? (some path)).run d).directory := by
  obtain ⟨text, htext, hemit⟩ := exists_text_of_run (exitCode_run.1 hok)
  cases (result_outputText_of_dump hload (some path)).symm.trans htext
  exact (outcome_emit_some_eq_ok_iff.1 hemit).2

variable [LawfulFileSystem σ]

/-- What was dumped can be loaded again from where it was, even if it was written over. -/
theorem loads_of_dump (hload : Loads d schema? s)
    (hwrite : FileSystem.write d path (s.text ++ "\n").toUTF8 = .ok after) :
    Loads after schema? s := by
  cases hload with
  | standard => exact .standard
  | file hholds hread hsound =>
    rcases read_of_write hholds hwrite with hsame | hwritten
    · exact .file hsame hread hsound
    · exact .file hwritten (read_text_line s) hsound

/-! ### Runs that look the same -/

/-- What comes of a text depends on what can be written to, and only where it is written. -/
theorem outcome_alike (htext : c.outputText.result d = c'.outputText.result d')
    (houtput : c.output? = c'.output?) (hfiles : c.output? = none ∨ SameFiles d d') :
    (∃ f, c.steps.outcome d = .error f ∧ c'.steps.outcome d' = .error f) ∨
      ∃ stdout after after', c.steps.outcome d = .ok (stdout, after) ∧
        c'.steps.outcome d' = .ok (stdout, after') ∧
        ∀ path ∈ c.output?, ∃ text, Holds after path text ∧ Holds after' path text := by
  rw [outcome_steps, outcome_steps, ← htext, ← houtput]
  cases c.outputText.result d with
  | error f => exact Or.inl ⟨f, rfl, rfl⟩
  | ok text =>
    show (∃ f, (emit text c.output?).outcome d = _ ∧ (emit text c.output?).outcome d' = _) ∨
      ∃ stdout after after', (emit text c.output?).outcome d = _ ∧
        (emit text c.output?).outcome d' = _ ∧ _
    cases hpath : c.output? with
    | none => exact Or.inr ⟨text, d, d', rfl, rfl, by simp⟩
    | some path =>
      have hsame : SameFiles d d' := hfiles.resolve_left (by simp [hpath])
      rcases hsame.write path text.toUTF8 with ⟨e, hd, hd'⟩ | ⟨after, after', hd, hd'⟩
      · rw [outcome_emit_some, outcome_emit_some, hd, hd']
        exact Or.inl ⟨.file e, rfl, rfl⟩
      · have hread := read_write hd
        have hread' := read_write hd'
        rw [outcome_emit_some, outcome_emit_some, hd, hd']
        refine Or.inr ⟨"", after, after', rfl, rfl, ?_⟩
        rintro _ ⟨⟩
        exact ⟨text, hread, hread'⟩

theorem like_run (htext : c.outputText.result d = c'.outputText.result d')
    (houtput : c.output? = c'.output?) (hfiles : c.output? = none ∨ SameFiles d d') :
    (c.run d).Like (c'.run d') c.output? := by
  rcases outcome_alike htext houtput hfiles with
    ⟨f, hc, hc'⟩ | ⟨stdout, after, after', hc, hc', hwritten⟩
  · obtain ⟨events, hrun⟩ := run_of_error hc
    obtain ⟨events', hrun'⟩ := run_of_error hc'
    rw [hrun, hrun']
    exact ⟨rfl, rfl, rfl, fun hnone => (nomatch hnone)⟩
  · obtain ⟨events, hrun⟩ := run_of_ok hc
    obtain ⟨events', hrun'⟩ := run_of_ok hc'
    rw [hrun, hrun']
    exact ⟨rfl, rfl, rfl, fun _ => hwritten⟩

end Command

/-- What a dump of a schema to a path owes, from the state before it and the one after. -/
structure Reloads {σ : Type} [FileSystem σ] [LawfulFileSystem σ] (schema? : Option String)
    (path : String) (s : Schema) (d after : σ) : Prop where
  /-- The file that was written loads as the schema. -/
  loads : (Command.loadSchema (some path)).result after = .ok s
  /-- What was dumped loads as before, even if it was the same file. -/
  kept : (Command.loadSchema schema?).result after = .ok s
  /-- A dump of the file prints the bytes of the file and changes nothing. -/
  prints : ∀ args, Command.ofArguments? args = some ⟨.dump, some path, none⟩ →
    (Command.runLine args after).exitCode = 0 ∧ (Command.runLine args after).failure? = none ∧
      (Command.runLine args after).directory = after ∧
      FileSystem.read after path = .ok (Command.runLine args after).stdout.toUTF8
  /-- A document comes out of the file as it comes out of what was dumped, in any state that
  has this: the one before the dump and the one after it. With an output path the two must have the
  same files, since it makes a difference to a path whether it goes on from the name of a file. They
  have after the dump and, if it was in place, before it. -/
  generates : ∀ (mode : String) (header? output? : Option String) (args args' : List String)
    (e : σ), Command.ofArguments? args = some ⟨.generate mode header?, schema?, output?⟩ →
      Command.ofArguments? args' = some ⟨.generate mode header?, some path, output?⟩ →
      (Command.loadSchema schema?).result e = .ok s →
      (output? = none ∨ FileSystem.SameFiles e after) →
        (Command.runLine args e).Like (Command.runLine args' after) output?
  /-- A dump to a file that there was, be it the one that was dumped, leaves the same files. -/
  inPlace : ∀ bytes, FileSystem.read d path = .ok bytes → FileSystem.SameFiles d after

namespace Command
open FileSystem (read_write sameFiles_of_write)

/-- **Dump and reload.** A dump to a path that succeeds has stored the schema that was loaded, and
to store the stored schema again makes no difference. -/
theorem dump_reloads {σ : Type} [FileSystem σ] [LawfulFileSystem σ] {args : List String}
    {schema? : Option String} {path : String}
    (hargs : ofArguments? args = some ⟨.dump, schema?, some path⟩) {d : σ} {s : Schema}
    (hload : (loadSchema schema?).result d = .ok s) (hok : (runLine args d).exitCode = 0) :
    Reloads schema? path s d (runLine args d).directory := by
  rw [runLine_eq_run hargs] at hok ⊢
  have hwrite := write_of_dump hload hok
  have hloads := result_loadSchema_eq_ok_iff.1 hload
  have hreload := result_loadSchema_eq_ok_iff.2
    (.file (read_write hwrite) (read_text_line s) (sound_of_loads hloads))
  refine ⟨hreload, ?_, fun args hargs => ?_, ?_, fun bytes hbytes => ?_⟩
  · exact result_loadSchema_eq_ok_iff.2 (loads_of_dump hloads hwrite)
  · obtain ⟨events, hprinted⟩ :=
      run_of_ok (outcome_steps_of_print (result_outputText_of_dump hreload none) rfl)
    rw [runLine_eq_run hargs, hprinted]
    exact ⟨rfl, rfl, rfl, read_write hwrite⟩
  · intro mode header? output? args args' e hargs hargs' hload' hfiles
    rw [runLine_eq_run hargs, runLine_eq_run hargs']
    exact like_run (result_outputText_congr rfl rfl hload' hreload) rfl hfiles
  · exact sameFiles_of_write hbytes hwrite

/-- A dump in place. Afterwards the file is printed as it is, and a header comes out of it as it did
before. -/
theorem dump_reloads_looseFile :
    ∃ after, (runLine ["schema", "-s", "ast.json", "-o", "ast.json"] looseFile).exitCode = 0 ∧
      (runLine ["schema", "-s", "ast.json", "-o", "ast.json"] looseFile).directory = after ∧
      Reloads (some "ast.json") "ast.json" nodeOnly looseFile after ∧
      after.read "ast.json" = .ok (runLine ["schema", "-s", "ast.json"] after).stdout.toUTF8 ∧
      (runLine ["generate", "hpp", "-s", "ast.json"] looseFile).Like
        (runLine ["generate", "hpp", "-s", "ast.json"] after) none := by
  have hargs : ofArguments? ["schema", "-s", "ast.json", "-o", "ast.json"] =
      some ⟨.dump, some "ast.json", some "ast.json"⟩ := by decide
  have hload := result_loadSchema_eq_ok_iff.2 looseFile_loads
  have houtcome : (Command.mk .dump (some "ast.json") (some "ast.json")).steps.outcome looseFile =
      .ok ("", looseFile.holding "ast.json" (nodeOnly.text ++ "\n").toUTF8) := by
    rw [outcome_steps, result_outputText_of_dump hload]
    rfl
  have hok : (runLine ["schema", "-s", "ast.json", "-o", "ast.json"] looseFile).exitCode = 0 := by
    obtain ⟨events, hrun⟩ := run_of_ok houtcome
    rw [runLine_eq_run hargs, hrun]
  have hreloads := dump_reloads hargs hload hok
  have hgenerate : ofArguments? ["generate", "hpp", "-s", "ast.json"] =
      some ⟨.generate "hpp" none, some "ast.json", none⟩ := by decide
  have hprinted := (hreloads.prints ["schema", "-s", "ast.json"] (by decide)).2.2.2
  exact ⟨_, hok, rfl, hreloads, hprinted,
    hreloads.generates _ _ _ _ _ _ hgenerate hgenerate hload (Or.inl rfl)⟩

end Command
end VisitorGen
