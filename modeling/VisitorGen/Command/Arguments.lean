/-! Command lines. The first argument names what to do; options may stand anywhere after
it, and after `--` everything is positional. An option has its value attached, with or
without an equals sign, or takes the next argument, unless that looks like an option
itself. No option may be given twice, and no path may be empty. -/
namespace VisitorGen

inductive Action where
  | generate (mode : String) (header? : Option String)
  | dump
deriving DecidableEq, Repr

structure Command where
  action : Action
  schema? : Option String
  output? : Option String
deriving DecidableEq, Repr

namespace Command

inductive Switch where
  | header
  | schema
  | output
deriving DecidableEq, Repr

/-- What one argument says by itself. -/
inductive Piece where
  | positional
  | separator
  | attached (switch : Switch) (value : String)
  | detached (switch : Switch)
  | unknown
deriving DecidableEq, Repr

def Switch.ofLong? (name : List Char) : Option Switch :=
  if name = "header".toList then some .header
  else if name = "schema".toList then some .schema
  else if name = "output".toList then some .output
  else none

def Switch.ofShort? (letter : Char) : Option Switch :=
  if letter = 's' then some .schema
  else if letter = 'o' then some .output
  else none

/-- The form of an argument: one dash and a letter, two dashes and a word, or neither. -/
def piece (arg : String) : Piece :=
  match arg.toList with
  | '-' :: '-' :: [] => .separator
  | '-' :: '-' :: word =>
    match Switch.ofLong? (word.takeWhile (· != '=')), word.dropWhile (· != '=') with
    | none, _ => .unknown
    | some switch, [] => .detached switch
    | some switch, _ :: value => .attached switch (String.ofList value)
  | '-' :: letter :: value =>
    match Switch.ofShort? letter, value with
    | none, _ => .unknown
    | some switch, [] => .detached switch
    | some switch, '=' :: value => .attached switch (String.ofList value)
    | some switch, value => .attached switch (String.ofList value)
  | _ => .positional

/-- An argument that cannot be the value of an option. -/
def looksLikeOption (arg : String) : Bool := arg.toList.head? == some '-' && arg != "-"

/-- What a command line has given so far. -/
structure Given where
  positionals : List String := []
  header? : Option String := none
  schema? : Option String := none
  output? : Option String := none

namespace Given

/-- A path given once, and not empty. -/
def path? (given : Option String) (value : String) : Option String :=
  if given.isSome ∨ value = "" then none else some value

def set? (g : Given) (value : String) : Switch → Option Given
  | .header => if g.header?.isSome then none else some { g with header? := some value }
  | .schema => (path? g.schema? value).map fun path => { g with schema? := some path }
  | .output => (path? g.output? value).map fun path => { g with output? := some path }

def add (g : Given) (args : List String) : Given :=
  { g with positionals := g.positionals ++ args }

/-- Takes in the arguments one after the other, if they make sense. -/
def takeAll? (g : Given) : List String → Option Given
  | [] => some g
  | arg :: rest =>
    match piece arg with
    | .positional => (g.add [arg]).takeAll? rest
    | .separator => some (g.add rest)
    | .unknown => none
    | .attached switch value => (g.set? value switch).bind (·.takeAll? rest)
    | .detached switch =>
      match rest with
      | [] => none
      | value :: rest =>
        if looksLikeOption value then none
        else (g.set? value switch).bind (·.takeAll? rest)

end Given

/-- The command that a command line spells, if it spells one. -/
def ofArguments? : List String → Option Command
  | "generate" :: args => do
    let g ← Given.takeAll? {} args
    match g.positionals with
    | [mode] => some ⟨.generate mode g.header?, g.schema?, g.output?⟩
    | _ => none
  | "schema" :: args => do
    let g ← Given.takeAll? {} args
    if g.positionals.isEmpty ∧ g.header?.isNone then some ⟨.dump, g.schema?, g.output?⟩
    else none
  | _ => none

end Command
end VisitorGen
