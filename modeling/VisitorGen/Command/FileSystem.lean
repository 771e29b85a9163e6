import VisitorGen.Failure

/-! Files, as far as a command has to do with them: what stands in the file that a path leads
to can be read, and it can be written. A command is one program for every monad in which this
is to be had (`FileAccess`). It is to be had in the monad of a state that is known as a value,
if reads and writes are (`FileSystem`). -/
namespace VisitorGen

/-- Reads and writes at paths. Both may be refused. -/
class FileAccess (m : Type → Type) where
  read (path : String) : m (Except FileError ByteArray)
  write (path : String) (content : ByteArray) : m (Except FileError Unit)

/-- What is read in a state of the files, and to which state a write leads. -/
class FileSystem (σ : Type) where
  read (d : σ) (path : String) : Except FileError ByteArray
  write (d : σ) (path : String) (content : ByteArray) : Except FileError σ

/-- A write that is refused leaves the state as it was. -/
instance [FileSystem σ] : FileAccess (StateM σ) where
  read path d := (FileSystem.read d path, d)
  write path content d :=
    match FileSystem.write d path content with
    | .error e => (.error e, d)
    | .ok after => (.ok (), after)

end VisitorGen
