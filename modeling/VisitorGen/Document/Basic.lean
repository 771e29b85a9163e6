import VisitorGen.Schema.Basic

/-! Generated documents: lists of lines, and the lines that headers and sources share.
Every line of a document ends with a line feed, the last one too. -/
namespace VisitorGen

structure Document where
  lines : List String
deriving DecidableEq, Repr

namespace Document

def text (d : Document) : String := String.join (d.lines.map (· ++ "\n"))

/-- The note on top of every document that says where it comes from. -/
def provenance : List String := ["/*", " * This file was generated by astgen.", " */"]

/-- The target of an inclusion brings its own quotes or angle brackets. -/
def isDelimited (target : String) : Bool :=
  target.toList.head?.any fun c => c == '"' || c == '<'

/-- What stands after `#include`: a delimited target as it is, any other in quotes. -/
def includeTarget (target : String) : String :=
  if isDelimited target then target else "\"" ++ target ++ "\""

def includeLine (target : String) : String := "#include " ++ includeTarget target

/-- Type and name of every field, for a list of parameters. -/
def parameters (fields : List Field) : String :=
  String.intercalate ", " (fields.map fun f => f.type ++ " " ++ f.name)

end Document
end VisitorGen
