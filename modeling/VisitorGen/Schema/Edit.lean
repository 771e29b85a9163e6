import VisitorGen.Schema.Basic

/-! Edits of a schema by position. A position past the end inserts at the end and
removes or replaces nothing. -/
namespace VisitorGen.Schema

def push (s : Schema) (e : Entry) : Schema := { s with entries := s.entries ++ [e] }

def insertAt (s : Schema) (i : Nat) (e : Entry) : Schema :=
  { s with entries := s.entries.take i ++ e :: s.entries.drop i }

def removeAt (s : Schema) (i : Nat) : Schema := { s with entries := s.entries.eraseIdx i }

def replaceAt (s : Schema) (i : Nat) (e : Entry) : Schema :=
  { s with entries := s.entries.set i e }

/-- Takes the entry out, then puts it at `target` of the shorter list. -/
def move (s : Schema) (source target : Nat) : Schema :=
  match s.entries[source]? with
  | none => s
  | some e => (s.removeAt source).insertAt target e

end VisitorGen.Schema
