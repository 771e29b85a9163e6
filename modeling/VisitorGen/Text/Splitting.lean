import VisitorGen.Text.Classes

/-! Texts taken apart: at a separator, and from the blanks at either end. -/
namespace VisitorGen.Text

/-- The parts between the separators: one more than there are separators. -/
def parts (separator : Char) (text : String) : List String :=
  (text.toList.splitOn separator).map String.ofList

/-- The text without the blanks at either end. -/
def trimmed (cs : List Char) : List Char :=
  ((cs.dropWhile isBlank).reverse.dropWhile isBlank).reverse

def trim (text : String) : String := String.ofList (trimmed text.toList)

/-- Nothing is left of the text once its blanks are trimmed. -/
def isBlankText (text : String) : Bool := (trimmed text.toList).isEmpty

end VisitorGen.Text
