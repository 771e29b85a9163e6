import VisitorGen.Command.Log
import VisitorGen.Text.Splitting

/-! Log filters: which events of a log are shown. A filter is a list of directives, each
with a level for the events that it fits; for an event the most specific one decides. -/
namespace VisitorGen

namespace Level

def all : List Level := [off, error, warn, info, debug, trace]

/-- The number that a text of digits spells, which may have a plus sign before it. -/
def number? (text : List Char) : Option Nat :=
  let digits := if text.head? = some '+' then text.tail else text
  if digits ≠ [] ∧ digits.all Char.isDigit then some (Nat.ofDigitChars 10 digits 0) else none

/-- A level by its name, in any case of letters, or by its rank. -/
def ofName? (name : List Char) : Option Level :=
  all.find? fun level =>
    name.map Char.toUpper == level.label.toList || number? name == some level.rank

end Level

/-- Lets events up to a level through whose target begins with the given one and that, if
a field is asked for, have this field. -/
structure Directive where
  target : List Char
  field? : Option (List Char)
  level : Level
deriving DecidableEq, Repr

namespace Directive

def fits (d : Directive) (e : Event) : Bool :=
  d.target.isPrefixOf e.target.toList &&
    d.field?.all fun name => e.fields.any (·.toList == name)

/-- The other directive is at least as specific: its target is longer or, of equal length,
it alone asks for a field or for one that is no earlier in the alphabet. -/
def yields (d other : Directive) : Bool :=
  if d.target.length = other.target.length then
    match d.field?, other.field? with
    | none, _ => true
    | some _, none => false
    | some name, some otherName => String.ofList name ≤ String.ofList otherName
  else d.target.length < other.target.length

/-! ### Reading -/

def canBegin (c : Char) : Bool := c.isAlphanum || ['-', ':', '_', '['].contains c

/-- The level that is set behind an equals sign. Where none is set, all is let through. -/
def levelSet? : List Char → Option Level
  | [] | ['='] => some .trace
  | '=' :: name => Level.ofName? name
  | _ => none

/-- A level for all events, or a target, a field in brackets or both and then perhaps a
level. A text that makes no sense is no directive, nor is one that names a span, since
events do not stand in any. -/
def ofText? (text : List Char) : Option Directive :=
  let target := text.takeWhile fun c => c != '=' && c != '['
  if text.head?.any canBegin then
    match text.dropWhile fun c => c != '=' && c != '[' with
    | [] => some <| match Level.ofName? target with
      | some level => ⟨[], none, level⟩
      | none => ⟨target, none, .trace⟩
    | '[' :: '\x7b' :: rest =>
      match rest.dropWhile (· != '\x7d') with
      | '\x7d' :: ']' :: rest' =>
        (levelSet? rest').map (⟨target, some (rest.takeWhile (· != '\x7d')), ·⟩)
      | _ => none
    | rest => (levelSet? rest).map (⟨target, none, ·⟩)
  else none

end Directive

abbrev LogFilter := List Directive

namespace LogFilter

/-- Directives set apart by commas. Without any, only errors are let through. -/
def ofText (text : String) : LogFilter :=
  match (Text.parts ',' text).filterMap (Directive.ofText? ·.toList) with
  | [] => [⟨[], none, .error⟩]
  | directives => directives

/-- The most specific directive that fits decides, of equal ones the last. -/
def deciding? (filter : LogFilter) (e : Event) : Option Directive :=
  (filter.filter (·.fits e)).foldl
    (fun best? d => if best?.all (·.yields d) then some d else best?) none

def passes (filter : LogFilter) (e : Event) : Bool :=
  (filter.deciding? e).any fun d => e.level.rank ≤ d.level.rank

/-- The lines that a log shows. An event shows as several if a path in it has line ends. -/
def lines (filter : LogFilter) (events : List Event) : List String :=
  (events.filter filter.passes).flatMap fun e => Text.parts '\n' e.line

end LogFilter
end VisitorGen
