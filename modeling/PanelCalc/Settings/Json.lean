import PanelCalc.Json.Package
import PanelCalc.Settings

/-!
# Settings as JSON

The declaration of the settings as a record with three fields. The rest is up to the JSON package.
-/

namespace PanelCalc

open Json (Choice Record)

def TransferMode.choice : Choice TransferMode where
  values := [.overwrite, .append]
  name := name
  listed mode := by cases mode <;> simp
  apart first second := by cases first <;> cases second <;> decide

def Theme.choice : Choice Theme where
  values := [.light, .dark]
  name := name
  listed theme := by cases theme <;> simp
  apart first second := by cases first <;> cases second <;> decide

namespace Settings

def transferModeField : Json.Field Settings where
  key := "transferMode"
  Value := TransferMode
  form := .choice TransferMode.choice
  get := transferMode
  put settings transferMode := { settings with transferMode }
  get_put _ _ := rfl

def themeField : Json.Field Settings where
  key := "theme"
  Value := Theme
  form := .choice Theme.choice
  get := theme
  put settings theme := { settings with theme }
  get_put _ _ := rfl

def hapticsField : Json.Field Settings where
  key := "haptics"
  Value := Bool
  form := .flag
  get := haptics
  put settings haptics := { settings with haptics }
  get_put _ _ := rfl

/-- The fields of the settings, and no two of them the same. -/
def record : Record Settings where
  usual := {}
  fields := [transferModeField, themeField, hapticsField]
  nodup := by decide
  get_put_of_ne field member other otherMember differ settings value := by
    simp only [List.mem_cons, List.not_mem_nil, or_false] at member otherMember
    -- Each field reads another part of the settings than the one that another field writes.
    obtain rfl | rfl | rfl := member <;> obtain rfl | rfl | rfl := otherMember <;>
      first | rfl | exact absurd rfl differ
  ext first second same := by
    have mode : first.transferMode = second.transferMode := same transferModeField (by simp)
    have theme : first.theme = second.theme := same themeField (by simp)
    have haptics : first.haptics = second.haptics := same hapticsField (by simp)
    cases first
    cases second
    simp_all only

variable [Json.Package]

/-- Reads settings from a JSON text. -/
def ofJson (text : String) : Except Fault Settings :=
  match Json.Package.read (Json.Package.reader record) text with
  | .ok settings => .ok settings
  | .error cause => .error (.settingsFormat cause)

/-- Writes settings as a JSON text. -/
def toJson (settings : Settings) : String :=
  Json.Package.write (Json.Package.writer record settings)

end Settings
end PanelCalc
