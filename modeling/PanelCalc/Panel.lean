import PanelCalc.Formula
import PanelCalc.Settings
import PanelCalc.Text.Blank

/-!
# Panels

A panel holds the expression that is being typed and, once it has been evaluated, the result. All
its transitions go through `Panel.after`, which never fails: a failed evaluation shows the error
text beside the expression. What a panel can give to another one is its `Panel.offer`.
-/

namespace PanelCalc

/-- Whether a panel shows the expression being typed or a result. -/
inductive Mode where
  | editing
  | result
  deriving DecidableEq, Repr

def Mode.name : Mode → String
  | editing => "editing"
  | result => "result"

/-- A calculator panel. -/
structure Panel where
  expression : String := ""
  /-- The value shown, empty while editing. -/
  result : String := ""
  /-- The error text, while the last evaluation of what is shown has failed. -/
  error : Option String := none
  mode : Mode := .editing
  deriving DecidableEq, Repr, Inhabited

namespace Panel

/-- What can happen to a panel. -/
inductive Action where
  /-- A key or a longer text is typed. -/
  | type (text : String)
  | clear
  | backspace
  | evaluate
  /-- A value arrives from elsewhere. -/
  | receive (value : String) (mode : TransferMode)
  deriving DecidableEq, Repr

/-- A panel in which an expression is being typed. -/
def editing (expression : String) : Panel := { expression }

/-- A panel that shows the result of an expression. -/
def showing (expression result : String) : Panel := { expression, result, mode := .result }

/-- The text shown large. -/
def shown (panel : Panel) : String :=
  match panel.mode with
  | .editing => panel.expression
  | .result => panel.result

/-- What is typed by a text: the multiplication and division signs on keys are spelled differently
in expressions. -/
def spelling (text : String) : String :=
  if text = "×" then "*" else if text = "÷" then "/" else text

/-- Whether a text is a single operation sign. -/
def isOperation (text : String) : Bool :=
  match text.toList with
  | [char] => (Arith.ofChar? char).isSome
  | _ => false

/-- Whether typing a text on a shown result computes on with that result. -/
def continues (text : String) : Bool := isOperation text || text = ")"

/-- Whether typing a text on a shown result begins a new expression. -/
def beginsAnew (text : String) : Bool := text = "(" || text.toList.any Token.startsNumeral

/-- Types a text. On a shown result, an operation or closing parenthesis follows the result, a
number or opening parenthesis replaces everything, and anything else follows the expression. -/
def type (panel : Panel) (text : String) : Panel :=
  let typed := spelling text
  if panel.mode = .result && continues typed then editing (panel.result ++ typed)
  else if panel.mode = .result && beginsAnew typed then editing typed
  else editing (panel.expression ++ typed)

/-- Takes back the last character shown. -/
def backspace (panel : Panel) : Panel := editing (Text.dropLast panel.shown)

/-- Evaluates what is shown. -/
def evaluate (panel : Panel) : Panel :=
  match Formula.shown panel.shown with
  | .ok result => showing panel.shown result
  | .error _ => { expression := panel.expression, error := some errorText }

/-- Takes over a value. -/
def receive (panel : Panel) (value : String) : TransferMode → Panel
  | .overwrite => editing value
  | .append => editing (panel.expression ++ value)

/-- The panel after an action. -/
def after (panel : Panel) : Action → Panel
  | .type text => panel.type text
  | .clear => {}
  | .backspace => panel.backspace
  | .evaluate => panel.evaluate
  | .receive value mode => panel.receive value mode

/-- The refusal of a panel into which nothing has been typed. -/
def nothingTyped : Fault := .transferRefused "No expression"

/-- The refusal of a panel whose expression has no value. -/
def notComputable : Fault := .transferRefused "Invalid expression"

/-- The value that a panel gives to another one: a shown result, otherwise the value of its
expression, which is computed without changing the panel. -/
def offer (panel : Panel) : Except Fault String :=
  if panel.mode = .result && panel.result ≠ "" then .ok panel.result
  else
    let formula := Text.trim panel.expression
    if formula = "" then .error nothingTyped
    else
      match Formula.shown formula with
      | .ok value => .ok value
      | .error _ => .error notComputable

end Panel
end PanelCalc
