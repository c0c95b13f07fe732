import PanelCalc.Calculator
import PanelCalc.Keypad
import PanelCalc.Settings.Json

/-!
# Widgets

A calculator as a page embeds it: panels are addressed by their names, and calls answer whether
anything has changed. A call that fails changes nothing.
-/

namespace PanelCalc

/-- A calculator behind a page. -/
structure Widget where
  calculator : Calculator := {}
  deriving DecidableEq, Repr, Inhabited

namespace Widget

/-- A widget with stored settings, if there are any and they can be read. -/
def start [Json.Package] (stored : Option String) : Widget :=
  match stored.map Settings.ofJson with
  | some (.ok settings) => ⟨.start settings⟩
  | _ => {}

/-- Moves on to another calculator. Answers whether it differs from the present one. -/
def moveTo (widget : Widget) (next : Calculator) : Bool × Widget :=
  (next ≠ widget.calculator, ⟨next⟩)

/-- Applies an action. Answers whether anything has changed. -/
def perform (widget : Widget) (action : Action) : Except Fault (Bool × Widget) := do
  let next ← widget.calculator.attempt action
  return widget.moveTo next

/-- Acts on the panel with a name. -/
def act (widget : Widget) (panel : String) (action : Panel.Action) :
    Except Fault (Bool × Widget) := do
  let id ← PanelId.ofName panel
  widget.perform (.panel id action)

/-- Presses a key on the panel with a name. Answers whether the key does anything; one that does
not is let through before the name is looked at. -/
def press (widget : Widget) (panel key : String) : Except Fault (Bool × Widget) :=
  match Keypad.action? key with
  | none => .ok (false, widget)
  | some action => do
      let (_, next) ← widget.act panel action
      return (true, next)

/-- Lets one panel give its value to another one. -/
def transfer (widget : Widget) (source target : String) : Except Fault Widget := do
  let source ← PanelId.ofName source
  let target ← PanelId.ofName target
  let (_, next) ← widget.perform (.transfer source target)
  return next

/-- Changes a setting. -/
def set (widget : Widget) (key value : String) : Except Fault (Bool × Widget) :=
  widget.perform (.set key value)

/-- Replaces all settings by stored ones. -/
def load [Json.Package] (widget : Widget) (stored : String) :
    Except Fault (Bool × Widget) := do
  let settings ← Settings.ofJson stored
  return widget.moveTo { widget.calculator with settings }

/-- The panel with a name. -/
def panel (widget : Widget) (name : String) : Except Fault Panel := do
  let id ← PanelId.ofName name
  return widget.calculator.panel id

/-- Whether the panel with a name has a value to give. -/
def hasOffer (widget : Widget) (name : String) : Except Fault Bool := do
  let id ← PanelId.ofName name
  return widget.calculator.hasOffer id

end Widget
end PanelCalc
