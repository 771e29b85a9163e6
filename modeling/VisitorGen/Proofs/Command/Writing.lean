import Mathlib.Tactic.SplitIfs
import VisitorGen.Command.Directory
import VisitorGen.Proofs.Command.Files

/-! A directory is a lawful file system. Its files are known by their names, and a path leads to
the name at which its parts end, whether or not a file has it (`Directory.Leads`). Where a path
leads does not depend on the files there are (`leads_any`), and how far it can be followed only on
their names (`SameNames.follow`). A write changes what the one name stands for and nothing else
(`write_eq_ok`). -/
namespace VisitorGen.Directory

/-- The name that a place is known by, if it is no directory. -/
def Place.name? : Place → Option String
  | inside | outside => none
  | file name _ | vacant name => some name

/-- The directory once the file has its new content. -/
def holding (d : Directory) (name : String) (content : ByteArray) : Directory :=
  ⟨put name content d.files⟩

variable {d : Directory} {name : String} {content : ByteArray} {place target : Place}

/-! ### Files -/

theorem file?_holding_self (d : Directory) (name : String) (content : ByteArray) :
    (d.holding name content).file? name = some content := by
  obtain ⟨files⟩ := d
  show (put name content files).lookup name = some content
  induction files with
  | nil => simp [put]
  | cons first files ih =>
    obtain ⟨other, old⟩ := first
    rw [put]
    by_cases hother : other = name
    · rw [if_pos hother]
      simp
    · rw [if_neg hother, List.lookup_cons, beq_eq_false_iff_ne.2 (Ne.symm hother)]
      exact ih

/-- A write changes no other file. -/
theorem file?_holding_of_ne {other : String} (h : other ≠ name) :
    (d.holding name content).file? other = d.file? other := by
  obtain ⟨files⟩ := d
  show (put name content files).lookup other = files.lookup other
  have hne : (other == name) = false := beq_eq_false_iff_ne.2 h
  induction files with
  | nil => simp [put, List.lookup_cons, hne]
  | cons first files ih =>
    obtain ⟨next, old⟩ := first
    rw [put]
    by_cases hnext : next = name
    · rw [if_pos hnext, List.lookup_cons, List.lookup_cons, hnext, hne]
    · rw [if_neg hnext, List.lookup_cons, List.lookup_cons, ih]

/-! ### Paths -/

theorem name?_placeOf (name : String) : (d.placeOf name).name? = some name := by
  unfold placeOf
  split <;> rfl

theorem walk_cons (d : Directory) (place : Place) (part : String) (parts : List String) :
    d.walk place (part :: parts) = d.step place part >>= (d.walk · parts) := List.foldlM_cons

/-- A step that succeeds leads to a directory, the same whatever files there are, or to the
name that the part spells. -/
theorem step_eq_ok {part : String} {next : Place} (h : d.step place part = .ok next) :
    (next.name? = none ∧ ∀ other : Directory, other.step place part = .ok next) ∨
      (next = d.placeOf part ∧
        ∀ other : Directory, other.step place part = .ok (other.placeOf part)) := by
  cases place with
  | file | vacant => cases h
  | inside =>
    simp only [step] at h ⊢
    split_ifs at h ⊢ with hstay hup hlong
    · cases h
      exact Or.inl ⟨rfl, fun _ => rfl⟩
    · cases h
      exact Or.inl ⟨rfl, fun _ => rfl⟩
    · exact Or.inr ⟨(Except.ok.inj h).symm, fun _ => rfl⟩
  | outside =>
    simp only [step] at h ⊢
    split_ifs at h ⊢ with hstay hup hlong
    · cases h
      exact Or.inl ⟨rfl, fun _ => rfl⟩
    · cases h
      exact Or.inl ⟨rfl, fun _ => rfl⟩

/-- No path goes on from a name. -/
theorem walk_of_name {parts : List String} (hplace : place.name? = some name)
    (h : d.walk place parts = .ok target) : parts = [] ∧ target = place := by
  cases parts with
  | nil => exact ⟨rfl, (Except.ok.inj h).symm⟩
  | cons part parts =>
    rw [walk_cons] at h
    cases place with
    | inside | outside => cases hplace
    | file | vacant => cases h

/-- A walk to a name ends at what has that name, and so it does in any other directory. The
induction is on the parts: all but the last lead to directories, and of those no file is one. -/
theorem walk_to_name {parts : List String} (hplace : place.name? = none)
    (h : d.walk place parts = .ok target) (hname : target.name? = some name) :
    target = d.placeOf name ∧
      ∀ other : Directory, other.walk place parts = .ok (other.placeOf name) := by
  induction parts generalizing place with
  | nil =>
    cases h
    rw [hplace] at hname
    cases hname
  | cons part parts ih =>
    simp only [walk_cons] at h ⊢
    cases hstep : d.step place part with
    | error e =>
      rw [hstep] at h
      cases h
    | ok next =>
      rw [hstep] at h
      rcases step_eq_ok hstep with ⟨hnext, hsame⟩ | ⟨rfl, hsame⟩
      · simp only [hsame]
        exact ih hnext h
      · obtain ⟨rfl, rfl⟩ := walk_of_name (name?_placeOf part) h
        obtain rfl : part = name := Option.some.inj ((name?_placeOf part).symm.trans hname)
        exact ⟨rfl, fun other => by rw [hsame]; rfl⟩

/-- A path that ends with a dot leads to a directory. -/
theorem name?_walk_dot {parts : List String} (h : d.walk place (parts ++ ["."]) = .ok target) :
    target.name? = none := by
  rw [walk, List.foldlM_append] at h
  cases hfront : parts.foldlM d.step place with
  | error e =>
    rw [hfront] at h
    cases h
  | ok last =>
    rw [hfront] at h
    replace h : d.walk last ["."] = .ok target := h
    rw [walk_cons] at h
    cases last with
    | inside | outside =>
      cases h
      rfl
    | file | vacant => cases h

/-- A path to a name is written as it is read: no slash stands after the name. -/
theorem outputParts_of_name {parts : List String} (hplace : place.name? = none)
    (h : d.walk place (outputParts parts).reverse = .ok target) (hname : target.name? = some name) :
    outputParts parts = parts := by
  cases parts with
  | nil => rfl
  | cons part parts =>
    by_cases hempty : part = ""
    · subst hempty
      exfalso
      rw [outputParts] at h
      split at h
      · cases h
        rw [hplace] at hname
        cases hname
      · rw [List.reverse_cons] at h
        rw [name?_walk_dot h] at hname
        cases hname
    · unfold outputParts
      split
      · exact absurd (List.cons.inj ‹_›).1 hempty
      · rfl

/-! ### Writes -/

theorem name?_start (path : String) : (start path).name? = none := by
  unfold start
  split <;> rfl

theorem follow_eq_ok_iff {path : String} {parts : List String} :
    d.follow path parts = .ok target ↔
      path ≠ "" ∧ ¬ pathLimit < path.utf8ByteSize ∧ d.walk (start path) parts = .ok target := by
  unfold follow
  split_ifs with hempty hlong
  · simp [hempty]
  · simp [hempty, hlong]
  · simp [hempty, hlong]

/-- The path leads to the name, whatever stands there. -/
def Leads (d : Directory) (path name : String) : Prop :=
  d.follow path (Text.parts '/' path) = .ok (d.placeOf name)

theorem leads_unique {path other : String} (h : d.Leads path name) (h' : d.Leads path other) :
    name = other := by
  have hplace : d.placeOf name = d.placeOf other := Except.ok.inj (h.symm.trans h')
  have hname := congrArg Place.name? hplace
  rwa [name?_placeOf, name?_placeOf, Option.some.injEq] at hname

/-- A path to a name leads there whatever files there are. -/
theorem leads_any {path : String}
    (h : d.follow path (Text.parts '/' path) = .ok target) (hname : target.name? = some name) :
    target = d.placeOf name ∧ ∀ other : Directory, other.Leads path name := by
  obtain ⟨hempty, hlong, hwalk⟩ := follow_eq_ok_iff.1 h
  obtain ⟨hplace, hany⟩ := walk_to_name (name?_start path) hwalk hname
  exact ⟨hplace, fun other => follow_eq_ok_iff.2 ⟨hempty, hlong, hany other⟩⟩

theorem read_eq_ok_iff {path : String} {bytes : ByteArray} :
    d.read path = .ok bytes ↔ ∃ name, d.Leads path name ∧ d.file? name = some bytes := by
  constructor
  · intro h
    obtain ⟨name, hfollow⟩ : ∃ name,
        d.follow path (Text.parts '/' path) = .ok (.file name bytes) := by
      unfold read at h
      split at h
      · cases h
      · cases h
        exact ⟨_, ‹_›⟩
      · cases h
      · cases h
    obtain ⟨hplace, hany⟩ := leads_any hfollow rfl
    refine ⟨name, hany d, ?_⟩
    unfold placeOf at hplace
    split at hplace
    · cases hplace
      assumption
    · cases hplace
  · rintro ⟨name, hleads, hfile⟩
    rw [read, hleads, placeOf, hfile]

/-- A write that succeeds has a name to write to: the path leads there, with no slash after it. -/
theorem write_eq_ok {path : String} {after : Directory} (h : d.write path content = .ok after) :
    ∃ name, (∀ other : Directory, other.Leads path name) ∧ after = d.holding name content := by
  obtain ⟨target, name, hfollow, hname, rfl⟩ : ∃ target name,
      d.follow path (outputParts (Text.parts '/' path).reverse).reverse = .ok target ∧
        target.name? = some name ∧ after = d.holding name content := by
    unfold write at h
    split at h
    · cases h
    · exact ⟨_, _, ‹_›, rfl, (Except.ok.inj h).symm⟩
    · exact ⟨_, _, ‹_›, rfl, (Except.ok.inj h).symm⟩
    · cases h
  obtain ⟨-, -, hwalk⟩ := follow_eq_ok_iff.1 hfollow
  rw [outputParts_of_name (name?_start path) hwalk hname, List.reverse_reverse] at hfollow
  exact ⟨name, (leads_any hfollow hname).2, rfl⟩

/-- A path that cannot be written to cannot be written to with any content. -/
theorem write_error {path : String} {e : FileError} (h : d.write path content = .error e)
    (other : ByteArray) : d.write path other = .error e := by
  unfold write at h ⊢
  split at h <;> simp_all

/-! ### Directories with the same names

How far a path can be followed does not depend on what the files hold. -/

/-- The two directories have files of the same names. -/
def SameNames (d e : Directory) : Prop := ∀ name, (d.file? name).isSome = (e.file? name).isSome

/-- The place, less what the file holds. -/
def Place.bare : Place → Place
  | file name _ => .file name .empty
  | place => place

/-- A write to a file that there was makes no name and takes none away. -/
theorem sameNames_holding {bytes : ByteArray} (h : d.file? name = some bytes)
    (content : ByteArray) : d.SameNames (d.holding name content) := fun other => by
  by_cases heq : other = name
  · rw [heq, h, file?_holding_self]
    rfl
  · rw [file?_holding_of_ne heq]

section SameNames

variable {e : Directory}

theorem SameNames.placeOf (h : d.SameNames e) (name : String) :
    (d.placeOf name).bare = (e.placeOf name).bare := by
  have hname := h name
  unfold Directory.placeOf
  cases hd : d.file? name <;> cases he : e.file? name <;> simp [hd, he, Place.bare] at hname ⊢

theorem SameNames.step (h : d.SameNames e) {other : Place} (hplace : place.bare = other.bare)
    (part : String) : (d.step place part).map Place.bare = (e.step other part).map Place.bare := by
  have hpart := h.placeOf part
  cases place <;> cases other <;> simp only [Place.bare, reduceCtorEq] at hplace
  case inside =>
    simp only [Directory.step]
    split_ifs <;> simp [Except.map, hpart]
  case outside =>
    simp only [Directory.step]
  case file => rfl
  case vacant => rfl

theorem SameNames.walk (h : d.SameNames e) {other : Place} (hplace : place.bare = other.bare)
    (parts : List String) :
    (d.walk place parts).map Place.bare = (e.walk other parts).map Place.bare := by
  induction parts generalizing place other with
  | nil => exact congrArg Except.ok hplace
  | cons part parts ih =>
    have hstep := h.step hplace part
    rw [walk_cons, walk_cons]
    cases hd : d.step place part with
    | error error =>
      cases he : e.step other part with
      | error error' =>
        rw [hd, he] at hstep
        exact congrArg Except.error (Except.error.inj hstep)
      | ok next => rw [hd, he] at hstep; cases hstep
    | ok next =>
      cases he : e.step other part with
      | error error => rw [hd, he] at hstep; cases hstep
      | ok next' =>
        rw [hd, he] at hstep
        exact ih (Except.ok.inj hstep)

theorem SameNames.follow (h : d.SameNames e) (path : String) (parts : List String) :
    (d.follow path parts).map Place.bare = (e.follow path parts).map Place.bare := by
  unfold Directory.follow
  split_ifs
  · rfl
  · rfl
  · exact h.walk rfl parts

/-- A write fails in both directories, with one error, or in neither. -/
theorem SameNames.write (h : d.SameNames e) (path : String) (content : ByteArray)
    (error : FileError) :
    d.write path content = .error error ↔ e.write path content = .error error := by
  have hfollow := h.follow path (outputParts (Text.parts '/' path).reverse).reverse
  unfold Directory.write
  generalize d.follow path _ = target at hfollow
  generalize e.follow path _ = target' at hfollow
  cases target with
  | error error =>
    cases target' with
    | error error' =>
      obtain rfl := Except.error.inj hfollow
      exact Iff.rfl
    | ok place => cases hfollow
  | ok place =>
    cases target' with
    | error error => cases hfollow
    | ok place' =>
      replace hfollow := Except.ok.inj hfollow
      cases place <;> cases place' <;> simp [Place.bare] at hfollow ⊢

end SameNames

/-! ### The file system -/

instance : LawfulFileSystem Directory where
  File := String
  Leads := Leads
  content? := file?
  leads_unique := leads_unique
  read_eq_ok_iff := read_eq_ok_iff
  write_eq_ok h := by
    obtain ⟨name, hleads, rfl⟩ := write_eq_ok h
    exact ⟨name, hleads _, file?_holding_self _ _ _, fun _ => file?_holding_of_ne⟩
  leads_write _ _ _ h := (leads_any h (name?_placeOf _)).2 _
  write_eq_error := write_error
  write_eq_error_iff hread hwrite other more e := by
    obtain ⟨name, hleads, rfl⟩ := write_eq_ok hwrite
    obtain ⟨file, hfile, hbytes⟩ := read_eq_ok_iff.1 hread
    obtain rfl := leads_unique hfile (hleads _)
    exact ((sameNames_holding hbytes _).write other more e).symm

/-- Of directories the names are all that writes depend on. -/
theorem sameFiles_iff {d e : Directory} : FileSystem.SameFiles d e ↔ d.SameNames e :=
  ⟨fun h => h.files, fun h => ⟨h, h.write⟩⟩

end VisitorGen.Directory
