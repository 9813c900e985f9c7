/-!
# Blanks

The characters that divide words, which are the white space of Unicode, and the one that divides
lines.
-/

namespace StackMachine.Text

/-- Whether a character is white space. -/
def isBlank (c : Char) : Bool :=
  let n := c.toNat
  (0x09 ≤ n && n ≤ 0x0d) || n == 0x20 || n == 0x85 || n == 0xa0 || n == 0x1680 ||
    (0x2000 ≤ n && n ≤ 0x200a) || n == 0x2028 || n == 0x2029 || n == 0x202f || n == 0x205f ||
    n == 0x3000

/-- The words of a text: its longest pieces without blanks. -/
def words (s : String) : List String :=
  ((s.toList.splitOnP isBlank).filter (!·.isEmpty)).map String.ofList

/-- The lines of a text: its pieces between line breaks. -/
def lines (s : String) : List String :=
  (s.toList.splitOn '\n').map String.ofList

end StackMachine.Text
