import VisitorGen.Text.Lowercase
import VisitorGen.Name.Identifier

/-! Snake case: an underscore before every ASCII capital but a leading one, then the
whole text in lower case. Runs of capitals are split letter by letter.

The capitals are found first, each by the place of its first byte. The name is then copied
from one capital to the next, with an underscore at each cut. -/
namespace VisitorGen.Name

/-- The places of the capitals in the rest of a text, which begins at `place`. -/
def capitalsFrom (place : String.Pos.Raw) : List Char → List String.Pos.Raw
  | [] => []
  | c :: rest =>
    if c.isUpper then place :: capitalsFrom (place + c) rest else capitalsFrom (place + c) rest

/-- The places of the ASCII capitals in a name, in the order of the name. -/
def capitals (name : String) : List String.Pos.Raw := capitalsFrom 0 name.toList

/-- A copy of a name in the making: what is copied so far, and the place of the last cut,
from which the rest is still to be copied. -/
structure Copy where
  copied : String
  last : String.Pos.Raw

/-- Copies up to a capital and cuts there. Nothing is cut off before a leading capital. -/
def Copy.cut (name : String) (copy : Copy) (capital : String.Pos.Raw) : Copy :=
  if 0 < capital then
    ⟨copy.copied ++ copy.last.extract name capital ++ "_", capital⟩
  else copy

/-- The name with its words set apart by underscores, its case unchanged. -/
def setApart (name : String) : String :=
  let copy := (capitals name).foldl (Copy.cut name) ⟨"", 0⟩
  copy.copied ++ copy.last.extract name name.rawEndPos

def snakeCase (name : String) : String :=
  String.ofList (Text.lowercase (setApart name).toList)

/-- The name that a visit method gives its parameter. -/
def parameterName (kind : String) : String := escapeKeyword (snakeCase kind)

end VisitorGen.Name
