import PanelCalc.Text.Basic

/-!
# Blank characters

The white space of Unicode, trimming and splitting into words. The gaps between the tokens of an
expression consist of four blanks only; that narrower set is `PanelCalc.Token.isGap`.
-/

namespace PanelCalc.Text

/-- The ranges, ends included, of the characters with the Unicode property `White_Space`. -/
def blankRanges : List (Nat × Nat) :=
  [(0x0009, 0x000D), (0x0020, 0x0020), (0x0085, 0x0085), (0x00A0, 0x00A0), (0x1680, 0x1680),
    (0x2000, 0x200A), (0x2028, 0x2029), (0x202F, 0x202F), (0x205F, 0x205F), (0x3000, 0x3000)]

/-- Whether a character is white space. -/
def isBlank (char : Char) : Bool :=
  blankRanges.any fun range => range.1 ≤ char.toNat && char.toNat ≤ range.2

/-- A text without the white space at its two ends. -/
def trim (text : String) : String :=
  String.ofList (dropEnd isBlank (text.toList.dropWhile isBlank))

/-- The words of a text: its longest runs without white space. -/
def words (text : String) : List String :=
  ((pieces isBlank text.toList).filter (· ≠ [])).map String.ofList

end PanelCalc.Text
