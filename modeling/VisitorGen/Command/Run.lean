import VisitorGen.Command.Arguments
import VisitorGen.Command.Directory
import VisitorGen.Command.Log
import VisitorGen.Schema.Loading
import VisitorGen.Schema.Standard
import VisitorGen.Schema.Encoding

/-! Running commands. The stages of a run are the choice of the target, the loading of the
schema, the document, and at last the one write. A run that fails at any stage has
written nothing. -/
namespace VisitorGen

namespace Command
variable {m : Type → Type} [Monad m]

/-- The target of a mode, which is the first thing to be settled. -/
def selectTarget (mode : String) (header? : Option String) : Step m Target := do
  let target ← .ofResult do Target.select (← Mode.ofName mode) header?
  .log (.selected target.mode)
  return target

/-- The schema in a file, or the standard one if no file is named. -/
def loadSchema [FileAccess m] : Option String → Step m Schema
  | none => return .standard
  | some path => do
    .log (.loading path)
    let bytes ← .ask (FileAccess.read path)
    let s ← .ofResult (Schema.load bytes)
    .log (.loaded s.entries.length)
    return s

def generateText (target : Target) (s : Schema) : Step m String := do
  .ofResult s.verify
  .log (.indexed s.entries.length (HierarchyIndex.ofSchema s).size)
  let document ← .ofResult (target.generate s)
  .log (.generated target.mode document.text.utf8ByteSize)
  return document.text

/-- The whole text that the command puts out. -/
def outputText [FileAccess m] (c : Command) : Step m String :=
  match c.action with
  | .generate mode header? => do
    let target ← selectTarget mode header?
    let s ← loadSchema c.schema?
    generateText target s
  | .dump => do
    let s ← loadSchema c.schema?
    return s.text ++ "\n"

/-- Puts the text into a file, if there is a path for it. What is left is to be printed. -/
def emit [FileAccess m] (text : String) : Option String → Step m String
  | none => return text
  | some path => do
    .ask (FileAccess.write path text.toUTF8)
    .log (.written path)
    return ""

def steps [FileAccess m] (c : Command) : Step m String := do
  let text ← c.outputText
  emit text c.output?

end Command

/-- What a run shows. -/
structure Answer where
  exitCode : Nat
  stdout : String
  failure? : Option Failure
  events : List Event

def Answer.ofLogged (logged : Logged String) : Answer :=
  match logged.result with
  | .ok stdout => ⟨0, stdout, none, logged.events⟩
  | .error failure => ⟨1, "", some failure, logged.events⟩

/-- What a run shows, and what it leaves behind: a directory, or whatever state its files are in. -/
structure Report (σ : Type) extends Answer where
  directory : σ

namespace Command

/-- Runs a command line. One that spells no command does nothing and exits with 2. -/
def answer {m : Type → Type} [Monad m] [FileAccess m] (args : List String) : m Answer :=
  match ofArguments? args with
  | some c => return .ofLogged (← c.steps.run)
  | none => return ⟨2, "", none, []⟩

/-- Runs a command line on files in a known state. -/
def runLine [FileSystem σ] (args : List String) (d : σ) : Report σ :=
  let shown := (answer args : StateM σ Answer).run d
  ⟨shown.1, shown.2⟩

end Command
end VisitorGen
