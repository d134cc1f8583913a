/-!
# Blank characters

The characters with the Unicode property `White_Space`, and what texts do with them: losing them at
both ends, and being split into words at them.
-/

namespace AgentThreads.Text

/-- The character has the Unicode property `White_Space`. -/
def isBlank (c : Char) : Bool :=
  let n := c.toNat
  (0x09 ≤ n && n ≤ 0x0D) || n == 0x20 || n == 0x85 || n == 0xA0 || n == 0x1680 ||
    (0x2000 ≤ n && n ≤ 0x200A) || n == 0x2028 || n == 0x2029 || n == 0x202F || n == 0x205F ||
    n == 0x3000

/-- The text without the blanks at its start. -/
def trimStart (s : List Char) : List Char :=
  s.dropWhile isBlank

/-- The text without the blanks at its two ends. -/
def trim (s : List Char) : List Char :=
  (trimStart (trimStart s).reverse).reverse

/-- There is nothing but blanks in the text. -/
def isAllBlank (s : List Char) : Bool :=
  s.all isBlank

/-- The words of a text: its longest runs without a blank. -/
def words (s : List Char) : List (List Char) :=
  (s.splitOnP isBlank).filter (!·.isEmpty)

/-- The lines of a text. A line feed ends a line and belongs to none. -/
def lines (s : List Char) : List (List Char) :=
  s.splitOn '\n'

end AgentThreads.Text
