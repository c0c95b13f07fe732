import PanelCalc.Panel

/-!
# Keys

Which keys a panel understands, named as keyboards name them or by the character they type.
-/

namespace PanelCalc.Keypad

/-- The characters whose keys type themselves. -/
def typing : List Char := "0123456789.+-*/%()×÷".toList

/-- What a key does to a panel; `none` for a key that does nothing. -/
def action? (key : String) : Option Panel.Action :=
  if key = "Enter" || key = "=" then some .evaluate
  else if key = "Backspace" || key = "⌫" then some .backspace
  else if key = "Escape" || key = "C" then some .clear
  else
    match key.toList with
    | [char] => if typing.contains char then some (.type key) else none
    | _ => none

/-- What the key of a character does to a panel. -/
def actionOfChar? (char : Char) : Option Panel.Action := action? char.toString

end PanelCalc.Keypad
