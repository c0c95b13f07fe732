/-!
# Faults

Every way in which a calculation, a change of state or a session can fail. A fault records its
cause; its wording is given once, by `Fault.message`, and the area in which it arises by
`Fault.area`.
-/

namespace PanelCalc

/-- The text a panel shows in place of a value that could not be computed. -/
def errorText : String := "Error"

/-- The areas of a calculator in which faults arise. -/
inductive Area where
  /-- Splitting a text into tokens. -/
  | lexing
  /-- Ordering tokens by precedence and parentheses. -/
  | ordering
  /-- Computing the value of an ordered expression. -/
  | evaluation
  /-- Changing panels or settings. -/
  | state
  /-- Reading or writing saved settings. -/
  | settings
  /-- Reading the input or writing the output of a session. -/
  | stream
  deriving DecidableEq, Repr

/-- The causes of failure. Positions are byte offsets in the UTF-8 form of the text read. -/
inductive Fault where
  | invalidCharacter (char : Char) (position : Nat)
  | invalidNumber (raw : String) (position : Nat)
  | mismatchedParens
  | unknownOperator (symbol : String)
  | invalidExpression (reason : String)
  | divisionByZero
  | invalidResult
  | transferRefused (reason : String)
  | unknownPanel (name : String)
  | unknownSetting (key : String)
  | invalidSettingValue (key value : String)
  | settingsRead (path cause : String)
  | settingsWrite (path cause : String)
  | settingsFormat (cause : String)
  | noConfigDirectory
  | input (reason : String)
  | output (reason : String)
  deriving DecidableEq, Repr

namespace Fault

/-- The wording of a fault. -/
def message : Fault → String
  | invalidCharacter char position =>
      "Invalid character '" ++ char.toString ++ "' at offset " ++ toString position
  | invalidNumber raw position =>
      "Invalid number '" ++ raw ++ "' at offset " ++ toString position
  | mismatchedParens => "Mismatched parentheses"
  | unknownOperator symbol => "Unknown operator '" ++ symbol ++ "'"
  | invalidExpression reason => "Invalid expression: " ++ reason
  | divisionByZero => "Division by zero"
  | invalidResult => "Result is not a finite number"
  | transferRefused reason => "Transfer refused: " ++ reason
  | unknownPanel name => "Unknown panel '" ++ name ++ "'"
  | unknownSetting key => "Unknown setting '" ++ key ++ "'"
  | invalidSettingValue key value =>
      "Invalid value '" ++ value ++ "' for setting '" ++ key ++ "'"
  | settingsRead path cause => "Failed to read settings file '" ++ path ++ "': " ++ cause
  | settingsWrite path cause => "Failed to write settings file '" ++ path ++ "': " ++ cause
  | settingsFormat cause => "Malformed settings: " ++ cause
  | noConfigDirectory => "No configuration directory available on this platform"
  | input reason => "Input error: " ++ reason
  | output reason => "Output error: " ++ reason

/-- The area in which a fault arises. -/
def area : Fault → Area
  | invalidCharacter _ _ | invalidNumber _ _ => .lexing
  | mismatchedParens | unknownOperator _ => .ordering
  | invalidExpression _ | divisionByZero | invalidResult => .evaluation
  | transferRefused _ | unknownPanel _ | unknownSetting _ | invalidSettingValue _ _ => .state
  | settingsRead _ _ | settingsWrite _ _ | settingsFormat _ | noConfigDirectory => .settings
  | input _ | output _ => .stream

/-- Whether a fault comes from computing an expression, as opposed to the state around it. -/
def isCalculation (fault : Fault) : Bool :=
  match fault.area with
  | .lexing | .ordering | .evaluation => true
  | .state | .settings | .stream => false

end Fault
end PanelCalc
