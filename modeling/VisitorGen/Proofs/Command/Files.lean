import VisitorGen.Command.FileSystem

/-! What a file system owes. Paths lead to files, several perhaps to one file, and what is read
and written at a path is the content of the file. A write changes this one file, it leads no path
astray, and whether it is refused does not depend on what is to be written, nor on what another
file holds (`LawfulFileSystem`). It follows that what was written is read (`read_write`), that
what could be read before a write can be read after it (`read_of_write`), and that a write to a
file that was there makes no difference to any other write (`sameFiles_of_write`). -/
namespace VisitorGen

/-- What a file system owes: its files, whether they are there or not, the paths that lead to
them and what they hold. -/
class LawfulFileSystem (σ : Type) [FileSystem σ] where
  File : Type
  Leads : σ → String → File → Prop
  content? : σ → File → Option ByteArray
  leads_unique {d : σ} {path : String} {file other : File} :
    Leads d path file → Leads d path other → file = other
  read_eq_ok_iff {d : σ} {path : String} {bytes : ByteArray} :
    FileSystem.read d path = .ok bytes ↔ ∃ file, Leads d path file ∧ content? d file = some bytes
  /-- A write is to the file that the path leads to, and to no other. -/
  write_eq_ok {d after : σ} {path : String} {content : ByteArray} :
    FileSystem.write d path content = .ok after →
      ∃ file, Leads d path file ∧ content? after file = some content ∧
        ∀ other, other ≠ file → content? after other = content? d other
  /-- A write leads no path astray. -/
  leads_write {d after : σ} {path : String} {content : ByteArray} :
    FileSystem.write d path content = .ok after →
      ∀ other file, Leads d other file → Leads after other file
  /-- A path that cannot be written to cannot be written to with any content. -/
  write_eq_error {d : σ} {path : String} {content : ByteArray} {e : FileError} :
    FileSystem.write d path content = .error e →
      ∀ other, FileSystem.write d path other = .error e
  /-- After a write to a file that was there the same writes are refused as before. -/
  write_eq_error_iff {d after : σ} {path : String} {bytes content : ByteArray} :
    FileSystem.read d path = .ok bytes → FileSystem.write d path content = .ok after →
      ∀ other more e, FileSystem.write after other more = .error e ↔
        FileSystem.write d other more = .error e

namespace FileSystem
open LawfulFileSystem

/-- The file that the path leads to holds the text in UTF-8. -/
def Holds [FileSystem σ] (d : σ) (path text : String) : Prop := read d path = .ok text.toUTF8

/-- The two have the same files, and where a write is refused in one, it is refused in the
other, with the same error. -/
structure SameFiles [FileSystem σ] [LawfulFileSystem σ] (d e : σ) : Prop where
  files : ∀ file : File σ, (content? d file).isSome = (content? e file).isSome
  writes : ∀ path content error, write d path content = .error error ↔
    write e path content = .error error

variable {σ : Type} [FileSystem σ] [LawfulFileSystem σ] {d e after : σ} {path : String}
  {bytes content : ByteArray}

/-- What was written is read. -/
theorem read_write (h : write d path content = .ok after) : read after path = .ok content := by
  obtain ⟨file, hleads, hcontent, -⟩ := write_eq_ok h
  exact read_eq_ok_iff.2 ⟨file, leads_write h path file hleads, hcontent⟩

/-- What could be read before a write can be read after it: what it was, or what was written. -/
theorem read_of_write {other : String} (hread : read d other = .ok bytes)
    (hwrite : write d path content = .ok after) :
    read after other = .ok bytes ∨ read after other = .ok content := by
  obtain ⟨file, hleads, hfile⟩ := read_eq_ok_iff.1 hread
  obtain ⟨target, -, hcontent, hothers⟩ := write_eq_ok hwrite
  have hafter := leads_write hwrite other file hleads
  by_cases heq : file = target
  · exact Or.inr (read_eq_ok_iff.2 ⟨file, hafter, heq ▸ hcontent⟩)
  · exact Or.inl (read_eq_ok_iff.2 ⟨file, hafter, (hothers file heq).trans hfile⟩)

/-- A write to a file that was there makes no file, and no difference to what can be written. -/
theorem sameFiles_of_write (hread : read d path = .ok bytes)
    (hwrite : write d path content = .ok after) : SameFiles d after where
  files file := by
    obtain ⟨target, hleads, hcontent, hothers⟩ := write_eq_ok hwrite
    obtain ⟨target', hleads', hbytes⟩ := read_eq_ok_iff.1 hread
    obtain rfl := leads_unique hleads hleads'
    by_cases heq : file = target
    · rw [heq, hcontent, hbytes]
      rfl
    · rw [hothers file heq]
  writes other more error := (write_eq_error_iff hread hwrite other more error).symm

/-- A write is refused in both with one error, or it succeeds in both. -/
theorem SameFiles.write (h : SameFiles d e) (path : String) (content : ByteArray) :
    (∃ error, write d path content = .error error ∧ write e path content = .error error) ∨
      ∃ after after', write d path content = .ok after ∧ write e path content = .ok after' := by
  cases hd : FileSystem.write d path content with
  | error error => exact Or.inl ⟨error, rfl, (h.writes path content error).1 hd⟩
  | ok after =>
    cases he : FileSystem.write e path content with
    | error error => cases hd.symm.trans ((h.writes path content error).2 he)
    | ok after' => exact Or.inr ⟨after, after', rfl, rfl⟩

end FileSystem
end VisitorGen
