import VisitorGen.Document.Target
import VisitorGen.Text.Guarded

/-! The log of a run: what happens on the way to a document. A step of a run logs events
whether it succeeds or fails. -/
namespace VisitorGen

inductive Level where
  | off
  | error
  | warn
  | info
  | debug
  | trace
deriving DecidableEq, Repr

namespace Level

def rank : Level → Nat
  | off => 0
  | error => 1
  | warn => 2
  | info => 3
  | debug => 4
  | trace => 5

def label : Level → String
  | off => "OFF"
  | error => "ERROR"
  | warn => "WARN"
  | info => "INFO"
  | debug => "DEBUG"
  | trace => "TRACE"

end Level

inductive Event where
  | selected (mode : Mode)
  | loading (path : String)
  | loaded (entries : Nat)
  | indexed (entries visitors : Nat)
  | generated (mode : Mode) (bytes : Nat)
  | written (path : String)
deriving DecidableEq, Repr

namespace Event

def level : Event → Level
  | generated .. | written .. => .info
  | _ => .debug

/-- The part of the program that an event belongs to. -/
def target : Event → String
  | loading .. | written .. => "astgen"
  | loaded .. => "astgen_compiler::compiler"
  | selected .. | indexed .. | generated .. => "astgen_compiler::render"

/-- The names of what the event tells, of which its message is one. -/
def fields : Event → List String
  | loaded .. => ["message", "entries"]
  | indexed .. => ["message", "entries", "visitors"]
  | generated .. => ["message", "mode", "bytes"]
  | _ => ["message"]

def text : Event → String
  | selected mode => "selected " ++ mode.extension ++ " renderer"
  | loading path => "loading schema from " ++ path
  | loaded entries => "loaded schema entries=" ++ toString entries
  | indexed entries visitors =>
    "built hierarchy index entries=" ++ toString entries ++ " visitors=" ++ toString visitors
  | generated mode bytes =>
    "generated document mode=" ++ mode.extension ++ " bytes=" ++ toString bytes
  | written path => "written to " ++ path

def line (e : Event) : String :=
  e.level.label ++ " " ++ e.target ++ ": " ++ Text.guarded e.text

end Event

/-! ### Logged steps -/

/-- What a step of a run came to, and what it logged. -/
structure Logged (α : Type) where
  events : List Event
  result : Except Failure α

/-- A step of a run. What it has to ask for, it asks in `m`. -/
def Step (m : Type → Type) (α : Type) : Type := m (Logged α)

namespace Step
variable {m : Type → Type} [Monad m]

def run (x : Step m α) : m (Logged α) := x

def ofResult (result : Except Failure α) : Step m α := (return ⟨[], result⟩ : m (Logged α))

def log (e : Event) : Step m Unit := (return ⟨[e], .ok ()⟩ : m (Logged Unit))

/-- Asks for something that may be refused. -/
def ask (request : m (Except FileError α)) : Step m α :=
  (do return ⟨[], (← request).mapError .file⟩ : m (Logged α))

/-- The second step is taken only if the first succeeds. -/
def bind (x : Step m α) (f : α → Step m β) : Step m β :=
  (do
    let first ← x.run
    match first.result with
    | .error failure => return ⟨first.events, .error failure⟩
    | .ok a =>
      let second ← (f a).run
      return ⟨first.events ++ second.events, second.result⟩ : m (Logged β))

instance : Monad (Step m) where
  pure a := ofResult (.ok a)
  bind := bind

end Step
end VisitorGen
