import PanelCalc.Settings

/-!
# Requests

What a command line asks for. The options that fill a request are declared here; how arguments spell
them, and what the program says about itself, is up to a parser package.
-/

namespace PanelCalc.CommandLine

/-- What a command line asks to have done. -/
structure Request where
  /-- The expression to compute instead of running a session. -/
  expression : Option String := none
  /-- The path of the settings. -/
  settings : Option String := none
  /-- The transfer mode of this session only. -/
  transferMode : Option TransferMode := none
  /-- How much is logged. -/
  logLevel : Option String := none
  deriving DecidableEq, Repr

/-- The options. Each of them takes a value and may be given once. -/
inductive Flag where
  | expression
  | settings
  | transferMode
  | logLevel
  deriving DecidableEq, Repr

/-- The long name of an option. -/
def Flag.name : Flag → String
  | expression => "eval"
  | settings => "settings"
  | transferMode => "transfer-mode"
  | logLevel => "log-level"

/-- Fills in a value that must not have been given before. -/
def once {α : Type} (before : Option α) (value : α) : Option (Option α) :=
  match before with
  | none => some (some value)
  | some _ => none

/-- Fills in the value of an option; `none` for a second value and for one that it cannot have. -/
def Request.put? (request : Request) (flag : Flag) (value : String) : Option Request :=
  match flag with
  | .expression => do
      return { request with expression := ← once request.expression value }
  | .settings =>
      if value = "" then none
      else do
        return { request with settings := ← once request.settings value }
  | .transferMode => do
      let mode ← TransferMode.ofName? value
      return { request with transferMode := ← once request.transferMode mode }
  | .logLevel => do
      return { request with logLevel := ← once request.logLevel value }

/-- What a command line leads to. -/
inductive Task where
  /-- Tells the user about the program. -/
  | tell (text : String)
  | perform (request : Request)
  deriving DecidableEq, Repr

/-- A package that reads command lines. -/
class Parser where
  /-- What arguments lead to; `none` if no sense can be made of them. -/
  read? (arguments : List String) : Option Task

end PanelCalc.CommandLine
