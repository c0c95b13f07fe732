import PanelCalc.Settings

/-!
# What a session leaves behind

A tally of what has happened in a session decides which settings are saved after it.
-/

namespace PanelCalc.Session

/-- What has happened in a session. -/
structure Tally where
  /-- A setting has been given another value. -/
  settingsChanged : Bool := false
  /-- The transfer mode has been set, if only to the value it had. -/
  transferModeSet : Bool := false
  /-- How many lines have been read. -/
  lines : Nat := 0
  deriving DecidableEq, Repr

namespace Tally

/-- The tally after a line. -/
def afterLine (tally : Tally) : Tally := { tally with lines := tally.lines + 1 }

/-- The tally after a setting has been set, to another value or to the one it had. -/
def afterSet (tally : Tally) (key : String) (changed : Bool) : Tally :=
  { tally with
    settingsChanged := tally.settingsChanged || changed
    transferModeSet := tally.transferModeSet || key = "transferMode" }

/-- The settings to save after a session that ends with the settings `current`; `none` if nothing
has been set. A transfer mode that was forced on this session gives way to the saved one, unless
the user has set the mode. -/
def toSave (tally : Tally) (current : Settings) (saved : TransferMode)
    (forced : Option TransferMode) : Option Settings :=
  if !tally.settingsChanged && !tally.transferModeSet then none
  else if forced.isSome && !tally.transferModeSet then
    some { current with transferMode := saved }
  else some current

end Tally
end PanelCalc.Session
