import VisitorGen.Document.Basic
import VisitorGen.Hierarchy.Index
import VisitorGen.Hierarchy.Path
import VisitorGen.Name.SnakeCase

/-! Headers: a struct for every kind of the schema, in schema order, then a visitor
class for every abstract kind with concrete children, in the order of the index. Blocks
are set apart by two empty lines. -/
namespace VisitorGen.Schema
open Document

/-- The struct of an abstract kind declares its visitor and its members. -/
def abstractBlock (s : Schema) (kind : AbstractKind) : List String :=
  ["", "", "struct " ++ s.qualifiedName kind.name, "\x7b", "    class Visitor;"] ++
    (s.membersOf kind.name).map (fun e => "    class " ++ e.name ++ ";") ++
    ["    virtual ~" ++ kind.name ++ "() = default;",
     "    virtual void accept(Visitor& visitor) const = 0;", "\x7d;"]

/-- The struct of a concrete kind declares its constructor, the acceptance of a visitor
and its fields. -/
def concreteBlock (s : Schema) (kind : ConcreteKind) : List String :=
  ["", "",
    "struct " ++ s.qualifiedName kind.parent ++ "::" ++ kind.name ++ " : " ++
      s.qualifiedName kind.parent,
    "\x7b",
    "    " ++ kind.name ++ "(" ++ parameters kind.fields ++ ");",
    "    void accept(" ++ s.qualifiedName kind.parent ++ "::Visitor& visitor) const override;"] ++
    kind.fields.map (fun f => "    " ++ f.type ++ " " ++ f.name ++ ";") ++
    ["\x7d;"]

def entryBlock (s : Schema) : Entry → List String
  | .ofAbstract kind => s.abstractBlock kind
  | .ofConcrete kind => s.concreteBlock kind

def visitLine (s : Schema) (parent : String) (child : ConcreteKind) : String :=
  "    virtual void visit(const " ++ s.qualifiedName parent ++ "::" ++ child.name ++ "& " ++
    Name.parameterName child.name ++ ") = 0;"

/-- The visitor of an abstract kind visits each of its concrete children. -/
def visitorBlock (s : Schema) (parent : String) (children : List ConcreteKind) : List String :=
  ["", "", "class " ++ s.qualifiedName parent ++ "::Visitor", "\x7b", "public:"] ++
    children.map (s.visitLine parent) ++ ["\x7d;"]

def headerIncludes (s : Schema) : List String :=
  ["", "#pragma once", "", "#include <memory>", "#include <optional>"] ++
    if s.includes.isEmpty then [] else "" :: s.includes.map includeLine

def header (s : Schema) : Document where
  lines :=
    provenance ++ s.headerIncludes ++ s.entries.flatMap s.entryBlock ++
      (HierarchyIndex.ofSchema s).groups.flatMap fun (parent, children) =>
        s.visitorBlock parent children

end VisitorGen.Schema
