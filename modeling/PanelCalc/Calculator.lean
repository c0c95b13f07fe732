import PanelCalc.Panel

/-!
# The calculator

Two panels and the settings. `Calculator.attempt` says what an action makes of them, or why it is
refused; `Calculator.after` keeps the calculator as it is when an action is refused.
-/

namespace PanelCalc

/-- The two panels. -/
inductive PanelId where
  | top
  | bottom
  deriving DecidableEq, Repr

namespace PanelId

/-- Both panels, the upper one first. -/
def all : List PanelId := [top, bottom]

def other : PanelId → PanelId
  | top => bottom
  | bottom => top

def name : PanelId → String
  | top => "top"
  | bottom => "bottom"

/-- The panel with a given name, in which capitals do not count. -/
def ofName (name : String) : Except Fault PanelId :=
  let word := Text.lowerAscii name
  if word = "top" then .ok top
  else if word = "bottom" then .ok bottom
  else .error (.unknownPanel name)

end PanelId

/-- What can happen to a calculator. -/
inductive Action where
  | panel (id : PanelId) (action : Panel.Action)
  /-- One panel gives its value to another one. -/
  | transfer (source target : PanelId)
  | set (key value : String)
  deriving DecidableEq, Repr

/-- The whole state of a calculator. -/
structure Calculator where
  top : Panel := {}
  bottom : Panel := {}
  settings : Settings := {}
  deriving DecidableEq, Repr, Inhabited

namespace Calculator

/-- A calculator with empty panels. -/
def start (settings : Settings) : Calculator := { settings }

def panel (calculator : Calculator) : PanelId → Panel
  | .top => calculator.top
  | .bottom => calculator.bottom

/-- The calculator with one panel replaced. -/
def setPanel (calculator : Calculator) (id : PanelId) (panel : Panel) : Calculator :=
  match id with
  | .top => { calculator with top := panel }
  | .bottom => { calculator with bottom := panel }

/-- The value that a panel gives to the other one. -/
def offer (calculator : Calculator) (id : PanelId) : Except Fault String :=
  (calculator.panel id).offer

/-- Whether a panel has a value to give. -/
def hasOffer (calculator : Calculator) (id : PanelId) : Bool := (calculator.offer id).isOk

/-- A line of guidance: which panels have a value to give. -/
def guidance (calculator : Calculator) : String :=
  match calculator.hasOffer .top, calculator.hasOffer .bottom with
  | false, false => "Compute something, then transfer."
  | true, false => "Bottom has nothing transferable."
  | false, true => "Top has nothing transferable."
  | true, true => "Transfer uses result first; otherwise auto-compute."

/-- A refusal to let a panel give its value to itself. -/
def samePanel : Fault := .transferRefused "Source and destination are the same panel"

/-- Lets one panel give its value to another one. -/
def transfer (calculator : Calculator) (source target : PanelId) : Except Fault Calculator :=
  if source = target then .error samePanel
  else
    match calculator.offer source with
    | .error fault => .error fault
    | .ok value =>
        let received :=
          (calculator.panel target).after (.receive value calculator.settings.transferMode)
        .ok (calculator.setPanel target received)

/-- Changes a setting. -/
def set (calculator : Calculator) (key value : String) : Except Fault Calculator :=
  match calculator.settings.set key value with
  | .error fault => .error fault
  | .ok settings => .ok { calculator with settings }

/-- What an action makes of a calculator, or why it is refused. -/
def attempt (calculator : Calculator) : Action → Except Fault Calculator
  | .panel id action => .ok (calculator.setPanel id ((calculator.panel id).after action))
  | .transfer source target => calculator.transfer source target
  | .set key value => calculator.set key value

/-- The calculator after an action; a refused one leaves it as it is. -/
def after (calculator : Calculator) (action : Action) : Calculator :=
  match calculator.attempt action with
  | .ok next => next
  | .error _ => calculator

end Calculator
end PanelCalc
