import VisitorGen.Json.Quoted

/-! Defects of a schema: what makes it unfit for generation, and how each is reported.
Names are quoted in a report, so whatever they are spelt like they end where they end. -/
namespace VisitorGen

inductive Defect where
  | repeatedAbstractKind (name : String)
  | kindNotIdentifier (name : String)
  | kindReserved (name : String)
  | unknownParent (parent name : String)
  | lateParent (parent name : String)
  | repeatedInScope (name : String)
  | namedAfterParent (name : String)
  | fieldNotIdentifier (field kind : String)
  | fieldReserved (field kind : String)
  | fieldNamedAfterKind (field kind : String)
  | fieldWithoutType (field kind : String)
  | repeatedField (field kind : String)
deriving DecidableEq, Repr

namespace Defect
open Json (quote)

def message : Defect → String
  | repeatedAbstractKind name => "The abstract kind " ++ quote name ++ " is defined twice"
  | kindNotIdentifier name => "The kind name " ++ quote name ++ " is not a valid identifier"
  | kindReserved name => "The kind name " ++ quote name ++ " is reserved"
  | unknownParent parent name =>
    "The parent " ++ quote parent ++ " of " ++ quote name ++
      " is not an abstract kind in the schema"
  | lateParent parent name =>
    "The parent " ++ quote parent ++ " of " ++ quote name ++ " must be declared before it"
  | repeatedInScope name => "The kind " ++ quote name ++ " is defined twice in the same scope"
  | namedAfterParent name =>
    "The kind " ++ quote name ++ " cannot share the name of its parent"
  | fieldNotIdentifier field kind =>
    "The field name " ++ quote field ++ " in " ++ quote kind ++ " is not a valid identifier"
  | fieldReserved field kind =>
    "The field name " ++ quote field ++ " in " ++ quote kind ++ " is reserved"
  | fieldNamedAfterKind field kind =>
    "The field " ++ quote field ++ " in " ++ quote kind ++
      " cannot share the name of its kind"
  | fieldWithoutType field kind =>
    "The field " ++ quote field ++ " in " ++ quote kind ++ " has no type"
  | repeatedField field kind =>
    "The field " ++ quote field ++ " is defined twice in " ++ quote kind

end Defect
end VisitorGen
