import VisitorGen.Schema.Basic

/-! The standard schema: expressions and statements of a small interpreted language. It
is taken when no other schema is given.

Fields of statements spell the root expression kind with a leading `::`, because the
statement scope has a kind `Expression` of its own. -/
namespace VisitorGen.Schema

private def node (parent name : String) (fields : List (String × String)) : Entry :=
  .ofConcrete ⟨name, fields.map fun (name, type) => ⟨name, type⟩, parent⟩

private def expressionKinds : List Entry :=
  [node "Expression" "Binary"
     [("left", "std::unique_ptr<Expression>"), ("op", "Token"),
      ("right", "std::unique_ptr<Expression>")],
   node "Expression" "Grouping" [("expression", "std::unique_ptr<Expression>")],
   node "Expression" "Literal" [("value", "Token::Literal")],
   node "Expression" "Unary" [("op", "Token"), ("right", "std::unique_ptr<Expression>")],
   node "Expression" "Variable" [("name", "Token")],
   node "Expression" "Assignment"
     [("name", "Token"), ("value", "std::unique_ptr<Expression>")]]

private def statementKinds : List Entry :=
  [node "Statement" "Expression" [("expression", "std::unique_ptr<::Expression>")],
   node "Statement" "Print"
     [("keyword", "Token"), ("expression", "std::unique_ptr<::Expression>")],
   node "Statement" "VariableDeclaration"
     [("name", "Token"), ("initializer", "std::unique_ptr<::Expression>")],
   node "Statement" "Block" [("statements", "std::vector<std::unique_ptr<Statement>>")],
   node "Statement" "IfElse"
     [("condition", "std::unique_ptr<::Expression>"), ("if_keyword", "Token"),
      ("then_statement", "std::unique_ptr<Statement>"),
      ("else_keyword", "std::optional<Token>"),
      ("else_statement", "std::unique_ptr<Statement>")],
   node "Statement" "WhileLoop"
     [("keyword", "Token"), ("condition", "std::unique_ptr<::Expression>"),
      ("body", "std::unique_ptr<Statement>")]]

def standard : Schema where
  includes := ["\"lexer.hpp\""]
  entries :=
    .ofAbstract (.root "Expression") :: expressionKinds ++
      .ofAbstract (.root "Statement") :: statementKinds

end VisitorGen.Schema
