import PanelCalc.Fault
import PanelCalc.Text.Basic

/-!
# Settings

The choices a user can make. A setting is changed by the text of its key and of its value, where
capitals count only in the key.
-/

namespace PanelCalc

/-- What becomes of the receiving panel's expression when a value is transferred. -/
inductive TransferMode where
  /-- The value replaces the expression. -/
  | overwrite
  /-- The value is added behind the expression. -/
  | append
  deriving DecidableEq, Repr

/-- The colours of a display. -/
inductive Theme where
  | light
  | dark
  deriving DecidableEq, Repr

/-- All settings. -/
structure Settings where
  transferMode : TransferMode := .overwrite
  theme : Theme := .dark
  /-- Whether a display gives haptic feedback on key presses. -/
  haptics : Bool := true
  deriving DecidableEq, Repr, Inhabited

namespace TransferMode

def name : TransferMode → String
  | overwrite => "overwrite"
  | append => "append"

/-- The mode with exactly this name. -/
def ofName? (name : String) : Option TransferMode :=
  if name = "overwrite" then some overwrite
  else if name = "append" then some append
  else none

/-- The mode that a user has named. -/
def parse (value : String) : Except Fault TransferMode :=
  match ofName? (Text.lowerAscii value) with
  | some mode => .ok mode
  | none => .error (.invalidSettingValue "transferMode" value)

end TransferMode

namespace Theme

def name : Theme → String
  | light => "light"
  | dark => "dark"

/-- The theme with exactly this name. -/
def ofName? (name : String) : Option Theme :=
  if name = "light" then some light
  else if name = "dark" then some dark
  else none

/-- The theme that a user has named. -/
def parse (value : String) : Except Fault Theme :=
  match ofName? (Text.lowerAscii value) with
  | some theme => .ok theme
  | none => .error (.invalidSettingValue "theme" value)

end Theme

namespace Settings

/-- The choice that a user has made about haptic feedback. -/
def parseHaptics (value : String) : Except Fault Bool :=
  let word := Text.lowerAscii value
  if word = "true" || word = "on" || word = "1" then .ok true
  else if word = "false" || word = "off" || word = "0" then .ok false
  else .error (.invalidSettingValue "haptics" value)

/-- Settings with one of them changed. -/
def set (settings : Settings) (key value : String) : Except Fault Settings :=
  if key = "transferMode" then do
    return { settings with transferMode := ← TransferMode.parse value }
  else if key = "theme" then do
    return { settings with theme := ← Theme.parse value }
  else if key = "haptics" then do
    return { settings with haptics := ← parseHaptics value }
  else .error (.unknownSetting key)

end Settings
end PanelCalc
