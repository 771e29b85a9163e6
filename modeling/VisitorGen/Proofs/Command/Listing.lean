import VisitorGen.Proofs.Command.Outcome
import VisitorGen.Proofs.Text.Shown

/-! What a directory lists. As long as no two files have one name, the listing is what the files
hold (`mem_listing_iff`). A write gives no name a second time (`distinct_write`), and so a run
leaves a directory with distinct names behind (`distinct_run`). What this directory lists after a
run that wrote is the text, as it is, under the name that the output path leads to, and under
every other name what was listed before (`mem_listing_run`). -/
namespace VisitorGen

namespace Directory
variable {d after : Directory} {name path : String} {content : ByteArray}

def names (files : List (String × ByteArray)) : List String := files.map Prod.fst

/-- No two files have one name. -/
def Distinct (d : Directory) : Prop := (names d.files).Nodup

/-! ### Names -/

/-- A write keeps the names in their order. A new one comes last. -/
theorem names_put (name : String) (content : ByteArray) (files : List (String × ByteArray)) :
    names (put name content files) =
      if name ∈ names files then names files else names files ++ [name] := by
  induction files with
  | nil => rfl
  | cons first files ih =>
    obtain ⟨other, old⟩ := first
    by_cases hother : other = name
    · simp [put, names, hother]
    · have hput : names (put name content ((other, old) :: files)) =
          other :: names (put name content files) := by rw [put, if_neg hother]; rfl
      have hmem : name ∈ names ((other, old) :: files) ↔ name ∈ names files := by
        simp [names, Ne.symm hother]
      rw [hput, ih]
      simp only [hmem]
      split <;> rfl

theorem distinct_write (hd : d.Distinct) (h : d.write path content = .ok after) :
    after.Distinct := by
  obtain ⟨name, -, rfl⟩ := write_eq_ok h
  show (names (put name content d.files)).Nodup
  rw [names_put]
  split_ifs with hname
  · exact hd
  · rw [← List.concat_eq_append]
    exact List.Nodup.concat hname hd

/-! ### Listings -/

theorem mem_files_iff (hd : d.Distinct) :
    (name, content) ∈ d.files ↔ d.file? name = some content := by
  obtain ⟨files⟩ := d
  show _ ↔ files.lookup name = some content
  replace hd : (names files).Nodup := hd
  induction files with
  | nil => simp
  | cons first files ih =>
    obtain ⟨other, old⟩ := first
    obtain ⟨hother, hfiles⟩ := List.nodup_cons.1 hd
    by_cases heq : name = other
    · subst heq
      have hnone : (name, content) ∉ files := fun h => hother (List.mem_map.2 ⟨_, h, rfl⟩)
      simp [hnone, eq_comm]
    · simp [List.lookup_cons, beq_eq_false_iff_ne.2 heq, heq, ih hfiles]

/-- The listing is what the files hold. -/
theorem mem_listing_iff (hd : d.Distinct) {text : String} :
    (name, text) ∈ d.listing ↔ (d.file? name).map Text.shown = some text := by
  simp only [listing, List.mem_map, Prod.exists, Prod.mk.injEq, Option.map_eq_some_iff]
  constructor
  · rintro ⟨_, content, hmem, rfl, hshown⟩
    exact ⟨content, (mem_files_iff hd).1 hmem, hshown⟩
  · rintro ⟨content, hfile, hshown⟩
    exact ⟨name, content, (mem_files_iff hd).2 hfile, rfl, hshown⟩

end Directory

namespace Command
open Directory

variable {c : Command} {d : Directory}

/-- A run leaves no two files of one name behind where there were none. -/
theorem distinct_run (c : Command) (hd : d.Distinct) : (c.run d).directory.Distinct := by
  rcases run_cases c d with ⟨f, events, -, hrun⟩ | ⟨stdout, after, events, houtcome, hrun⟩
  · rwa [hrun]
  · rw [outcome_steps] at houtcome
    obtain ⟨text, -, hemit⟩ := Json.bind_eq_ok.1 houtcome
    rw [hrun]
    cases houtput : c.output? with
    | none =>
      rw [houtput, outcome_emit_none] at hemit
      cases hemit
      exact hd
    | some path =>
      rw [houtput, outcome_emit_some_eq_ok_iff] at hemit
      exact distinct_write hd hemit.2

/-- A run that wrote is seen in the listing by its text, and by nothing else. -/
theorem mem_listing_run {path : String} (hd : d.Distinct) (houtput : c.output? = some path)
    (h : (c.run d).failure? = none) : ∃ s text name,
    FileSystem.Loads d c.schema? s ∧ c.action.Renders s text ∧ d.Leads path name ∧
      ∀ other shown, (other, shown) ∈ (c.run d).directory.listing ↔
        if other = name then shown = text else (other, shown) ∈ d.listing := by
  obtain ⟨s, text, hloads, hrenders, hemits⟩ := emits_run h
  rw [houtput] at hemits
  obtain ⟨-, -, name, hleads, hcontent, hothers⟩ := hemits
  refine ⟨s, text, name, hloads, hrenders, hleads, fun other shown => ?_⟩
  rw [mem_listing_iff (distinct_run c hd)]
  split_ifs with hname
  · have hfile : (c.run d).directory.file? other = some text.toUTF8 := hname ▸ hcontent
    rw [hfile, Option.map_some, Text.shown_toUTF8, Option.some.injEq, eq_comm]
  · have hfile : (c.run d).directory.file? other = d.file? other := hothers other hname
    rw [hfile, mem_listing_iff hd]

end Command
end VisitorGen
