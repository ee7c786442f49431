import ElmStyle.Text.Pieces

/-!
# Blank characters

Blanks separate the words of a value and are stripped from both ends of names and values.
-/
namespace ElmStyle.Text

/-- Tabs, line breaks, the four information separators and every space character of Unicode. -/
def isBlank (c : Char) : Bool :=
  let n := c.toNat
  (0x09 ≤ n && n ≤ 0x0D) || (0x1C ≤ n && n ≤ 0x20) || n == 0x85 || n == 0xA0 || n == 0x1680
    || (0x2000 ≤ n && n ≤ 0x200A) || n == 0x2028 || n == 0x2029 || n == 0x202F || n == 0x205F
    || n == 0x3000

/-- The text without the blanks at its ends. -/
def strip (s : String) : String :=
  String.ofList (stripBy isBlank s.toList)

/-- The maximal runs without a blank, in order. -/
def words (s : String) : List String :=
  ((pieces isBlank s.toList).filter (!·.isEmpty)).map String.ofList

end ElmStyle.Text
