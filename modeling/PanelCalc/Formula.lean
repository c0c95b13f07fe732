import PanelCalc.Decimal.Display
import PanelCalc.Postfix
import PanelCalc.Postfix.Value
import PanelCalc.Token.Lexer

/-!
# Formulas

A formula is the text of an expression. Its value is computed in three stages: the text is read
into tokens, the tokens are put into postfix order, and those are evaluated. The first stage that
fails gives the fault.
-/

namespace PanelCalc.Formula

/-- The tokens of a formula in postfix order. -/
def postfixed (formula : String) : Except Fault (List Token) := do
  let tokens ← Token.read formula
  Postfix.ofInfix tokens

/-- The value of a formula. -/
def value (formula : String) : Except Fault Float := do
  let tokens ← postfixed formula
  Postfix.value tokens

/-- The value of a formula as a panel shows it. -/
def shown (formula : String) : Except Fault String := do
  let result ← value formula
  return Decimal.display result

end PanelCalc.Formula
