/-! Identifiers of the generated code and the words that are taken.

A name is an identifier when it has the form of one. It is reserved when it is a
keyword of the generated language or one of the names that every generated class
already uses for its own members. A keyword is made usable by an underscore after it. -/
namespace VisitorGen.Name

def isIdentifierStart (c : Char) : Bool := c.isAlpha || c == '_'

def isIdentifierRest (c : Char) : Bool := c.isAlphanum || c == '_'

/-- A letter or underscore, then letters, digits and underscores, all of them ASCII. -/
def isIdentifierChars : List Char → Bool
  | [] => false
  | c :: rest => isIdentifierStart c && rest.all isIdentifierRest

def isIdentifier (name : String) : Bool := isIdentifierChars name.toList

def keywords : List String :=
  ["alignas", "alignof", "auto", "bool", "break", "case", "catch", "char",
   "class", "const", "constexpr", "continue", "default", "delete", "do", "double",
   "else", "enum", "explicit", "export", "extern", "false", "float", "for",
   "friend", "goto", "if", "inline", "int", "long", "namespace", "new",
   "operator", "private", "protected", "public", "return", "short", "sizeof", "static",
   "struct", "switch", "template", "this", "true", "typedef", "union", "while"]

def isKeyword (name : String) : Bool := keywords.contains name

/-- The names of the members that every generated class has. -/
def memberNames : List String := ["Visitor", "accept", "visit"]

def isReserved (name : String) : Bool := memberNames.contains name || isKeyword name

/-- The name itself, or the keyword with an underscore after it. -/
def escapeKeyword (name : String) : String := if isKeyword name then name ++ "_" else name

end VisitorGen.Name
