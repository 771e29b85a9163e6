import VisitorGen.Command.FileSystem
import VisitorGen.Text.Splitting
import VisitorGen.Text.Shown

/-! The directory in which a command runs: files by name, in the order in which they were
made. It holds no other directories. It stands in some, but in those nothing is known by
its name. -/
namespace VisitorGen

structure Directory where
  files : List (String × ByteArray)

namespace Directory

def file? (d : Directory) (name : String) : Option ByteArray := d.files.lookup name

/-! ### Paths

A path leads from place to place, one step for each part between its slashes. -/

/-- Where a path may lead: to the directory itself, to one that it stands in, to a file of
it, or to a name that no file has yet. -/
inductive Place where
  | inside
  | outside
  | file (name : String) (content : ByteArray)
  | vacant (name : String)

/-- How many bytes a name may have. -/
def nameLimit : Nat := 255

/-- How many bytes a path may have. -/
def pathLimit : Nat := 4095

def placeOf (d : Directory) (name : String) : Place :=
  match d.file? name with
  | some content => .file name content
  | none => .vacant name

/-- A step that can only be taken from a directory. An empty part and a dot stay in it. -/
def step (d : Directory) (place : Place) (part : String) : Except FileError Place :=
  match place with
  | .file .. => .error .notDirectory
  | .vacant _ => .error .notFound
  | .inside | .outside =>
    if part = "" ∨ part = "." then .ok place
    else if part = ".." then .ok .outside
    else if nameLimit < part.utf8ByteSize then .error .nameTooLong
    else match place with
      | .inside => .ok (d.placeOf part)
      | _ => .error .notFound

def walk (d : Directory) (place : Place) (parts : List String) : Except FileError Place :=
  parts.foldlM d.step place

/-- A path that begins with a slash starts at the outermost directory. -/
def start (path : String) : Place := if path.toList.head? = some '/' then .outside else .inside

/-- Follows the parts of a path. An empty path, or one too long, is not followed at all. -/
def follow (d : Directory) (path : String) (parts : List String) : Except FileError Place :=
  if path = "" then .error .notFound
  else if pathLimit < path.utf8ByteSize then .error .nameTooLong
  else d.walk (start path) parts

def read (d : Directory) (path : String) : Except FileError ByteArray :=
  match d.follow path (Text.parts '/' path) with
  | .error e => .error e
  | .ok (.file _ content) => .ok content
  | .ok (.vacant _) => .error .notFound
  | .ok _ => .error .isDirectory

/-! ### Writing -/

/-- The parts of a path to a file that is to be written, last part first. A slash after the
last name asks for a directory of that name, and none is made: the path then leads no
further than to the directory that would hold it. -/
def outputParts : List String → List String
  | "" :: parts =>
    match parts.dropWhile (· = "") with
    | [] => []
    | _ :: parts => "." :: parts
  | parts => parts

/-- Gives the file its new content, or makes it. -/
def put (name : String) (content : ByteArray) :
    List (String × ByteArray) → List (String × ByteArray)
  | [] => [(name, content)]
  | (other, old) :: rest =>
    if other = name then (name, content) :: rest else (other, old) :: put name content rest

def write (d : Directory) (path : String) (content : ByteArray) : Except FileError Directory :=
  match d.follow path (outputParts (Text.parts '/' path).reverse).reverse with
  | .error e => .error e
  | .ok (.file name _) | .ok (.vacant name) => .ok ⟨put name content d.files⟩
  | .ok _ => .error .isDirectory

/-- The files by name, with what they show as text. -/
def listing (d : Directory) : List (String × String) :=
  d.files.map fun (name, content) => (name, Text.shown content)

@[default_instance]
instance : FileSystem Directory where
  read := read
  write := write

end Directory
end VisitorGen
