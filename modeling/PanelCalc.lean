import PanelCalc.Main
import PanelCalc.Watched
import PanelCalc.Widget
import PanelCalc.Proofs.Calculator.Transfer
import PanelCalc.Proofs.Infix.Acceptance
import PanelCalc.Proofs.Infix.Replacement
import PanelCalc.Proofs.Session.Saved
import PanelCalc.Proofs.Watched.Observation
import PanelCalc.Proofs.Calculator.Typing
import PanelCalc.Proofs.Session.Keys
import PanelCalc.Proofs.FrontEnds.Agreement
import PanelCalc.Proofs.Calculator.Interleaving
import PanelCalc.Proofs.Calculator.Errors
import PanelCalc.Proofs.Session.Cut
import PanelCalc.Proofs.Session.Script
import PanelCalc.Proofs.Infix.Faults
import PanelCalc.Proofs.Widget.Laws
import PanelCalc.Proofs.Decimal.Closest
import PanelCalc.Proofs.Decimal.Denoted
import PanelCalc.Proofs.Decimal.Tidy
import PanelCalc.Proofs.Decimal.Displayed
import PanelCalc.Proofs.Session.Kept
import PanelCalc.Proofs.Postfix.Listings
import PanelCalc.Proofs.Decimal.Reads
import PanelCalc.Proofs.Decimal.Notation
import PanelCalc.Proofs.Decimal.Reread
import PanelCalc.Proofs.Calculator.Evaluation
import PanelCalc.Proofs.Postfix.Ordering
import PanelCalc.Proofs.Token.Runs
import PanelCalc.Proofs.Token.Lexemes
import PanelCalc.Proofs.Token.Defects
import PanelCalc.Proofs.Token.Calls
import PanelCalc.Proofs.Binary64.Order
import PanelCalc.Proofs.Decimal.Order
import PanelCalc.Proofs.Calculator.Continuation
import PanelCalc.Proofs.Calculator.Refusals
import PanelCalc.Proofs.Calculator.Backspace
import PanelCalc.Proofs.Session.Splitting
import PanelCalc.Proofs.Token.Literals
import PanelCalc.Proofs.Json.Grammar
import PanelCalc.Proofs.Json.Strings
import PanelCalc.Proofs.Json.Marks
import PanelCalc.Proofs.Json.Documents
import PanelCalc.Proofs.Settings.Documents
