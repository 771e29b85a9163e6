import VisitorGen.Document.Basic
import VisitorGen.Hierarchy.Path

/-! Sources: for every concrete kind, in schema order, the body of its constructor and of
its acceptance of a visitor. Abstract kinds and visitors are declared in full by the
header and have no line here. -/
namespace VisitorGen.Schema
open Document

/-- Every field is moved from the parameter of its name. -/
def initializers (fields : List Field) : String :=
  if fields.isEmpty then ""
  else " : " ++ String.intercalate ", "
    (fields.map fun f => f.name ++ "\x7bstd::move(" ++ f.name ++ ")\x7d")

def constructorLine (s : Schema) (kind : ConcreteKind) : String :=
  s.qualifiedName kind.parent ++ "::" ++ kind.name ++ "::" ++ kind.name ++ "(" ++
    parameters kind.fields ++ ")" ++ initializers kind.fields ++ " \x7b\x7d"

def acceptLine (s : Schema) (kind : ConcreteKind) : String :=
  "void " ++ s.qualifiedName kind.parent ++ "::" ++ kind.name ++ "::accept(" ++
    s.qualifiedName kind.parent ++ "::Visitor& visitor) const \x7b visitor.visit(*this); \x7d"

def bodyBlock (s : Schema) (kind : ConcreteKind) : List String :=
  ["", "", s.constructorLine kind, s.acceptLine kind]

/-- The source that belongs to the header of the given name. -/
def source (s : Schema) (header : String) : Document where
  lines :=
    provenance ++ ["", "#include <optional>", "", includeLine header] ++
      s.concreteKinds.flatMap s.bodyBlock

end VisitorGen.Schema
