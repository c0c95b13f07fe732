import PanelCalc.Text.Basic

/-!
# Texts as bytes

The UTF-8 form of texts, and the lines of a file.
-/

namespace PanelCalc.Text

/-- The UTF-8 form of a text. -/
def encode (text : String) : List UInt8 := text.toUTF8.data.toList

/-- The text that bytes stand for in UTF-8, if they do. -/
def decode? (bytes : List UInt8) : Option String := String.fromUTF8? ⟨bytes.toArray⟩

/-- Reading back the UTF-8 form of a text gives the text. -/
theorem decode?_encode (text : String) : decode? (encode text) = some text := by
  have valid : text.toByteArray.IsValidUTF8 := text.isValidUTF8
  simp [decode?, encode, String.fromUTF8?, String.fromUTF8, valid]

/-- The message about bytes that stand for no text. -/
def notUtf8 : String := "stream did not contain valid UTF-8"

/-- Whether a byte ends a line. -/
def isLineEnd (byte : UInt8) : Bool := byte == 10

/-- A line without the carriage return at its end, of which one may stand before the line end. -/
def dropReturn (line : List UInt8) : List UInt8 :=
  if line.getLast? = some 13 then line.dropLast else line

/-- The lines of a file. What stands behind the last line end is a line too unless it is empty. -/
def lines (bytes : List UInt8) : List (List UInt8) :=
  let all := pieces isLineEnd bytes
  all.dropLast.map dropReturn ++ (all.getLast?.toList.filter (· ≠ []))

end PanelCalc.Text
