import PanelCalc.Directories
import PanelCalc.FileTree
import PanelCalc.Settings.Json
import PanelCalc.Text.Bytes

/-!
# Saved settings

Where settings are kept between sessions, and how they are loaded and saved. A file that is not
there holds the usual settings.
-/

namespace PanelCalc.Settings

/-- Where settings are kept unless the user says otherwise. -/
def usualPath [Directories] (home configHome : Option String) : Except Fault String :=
  match Directories.config? home configHome with
  | some directory => .ok (joinPath (joinPath directory "doublecal") "settings.json")
  | none => .error .noConfigDirectory

variable [Json.Package]

/-- Settings from the bytes of a file at a path. -/
def ofBytes (path : String) (content : List UInt8) : Except Fault Settings :=
  match Text.decode? content with
  | none => .error (.settingsRead path Text.notUtf8)
  | some text => ofJson text

/-- Loads settings. -/
def load (tree : FileTree) (path : String) : Except Fault Settings :=
  match tree.target path with
  | .file _ content => ofBytes path content
  | .vacant _ | .missing => .ok {}
  | .directory => .error (.settingsRead path "is a directory")
  | .blocked => .error (.settingsRead path "not a directory")

/-- Loads settings, or takes the usual ones if that fails. -/
def loadOrUsual (tree : FileTree) (path : String) : Settings :=
  match load tree path with
  | .ok settings => settings
  | .error _ => {}

/-- Saves settings, making the directory they go to. What has been made of the tree before a
failure stays. -/
def save (tree : FileTree) (path : String) (settings : Settings) :
    Except Fault Unit × FileTree :=
  let (there, prepared) := tree.makeParent path
  if there then
    let (written, saved) := prepared.write path (Text.encode settings.toJson)
    if written then (.ok (), saved)
    else (.error (.settingsWrite path "not a regular file"), saved)
  else (.error (.settingsWrite path "no directory to write to"), prepared)

end PanelCalc.Settings
