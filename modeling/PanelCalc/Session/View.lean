import PanelCalc.Calculator
import PanelCalc.Text.Column

/-!
# The view of a session

How a session shows its panels: one line for each, the active one marked with a star.
-/

namespace PanelCalc.Session

/-- The line that shows a panel. -/
def panelLine (id : PanelId) (panel : Panel) (isActive : Bool) : String :=
  let marker := if isActive then "* " else "  "
  let result := if panel.mode = .result then " = " ++ panel.result else ""
  let error := match panel.error with
    | some text => "  [" ++ text ++ "]"
    | none => ""
  marker ++ Text.column .left 6 id.name ++ " " ++ panel.expression ++ result ++ error

/-- The lines that show both panels. -/
def view (calculator : Calculator) (active : PanelId) : String :=
  "\n".intercalate
    (PanelId.all.map fun id => panelLine id (calculator.panel id) (id = active))

end PanelCalc.Session
