import PanelCalc.Session.Line
import PanelCalc.Session.Sink
import PanelCalc.Session.Tally
import PanelCalc.Session.View
import PanelCalc.Text.Bytes

/-!
# Sessions

A session reads lines, applies them to a calculator and writes to a sink what has become of it.
Everything it does is a `Step`; a step that fails keeps the changes made before it failed.
-/

namespace PanelCalc

/-- A session under way. -/
structure Session where
  calculator : Calculator
  /-- The panel that keys go to. -/
  active : PanelId := .top
  tally : Session.Tally := {}
  sink : Sink := {}
  deriving DecidableEq, Repr

namespace Session

/-- A part of a session. -/
abbrev Step (α : Type) : Type := EStateM Fault Session α

/-- The list of keys and commands. -/
def helpText : String :=
  "keys      0-9 . + - * / % ( ) x  type into the active panel\n" ++
  "          =  evaluate     C  clear\n" ++
  "commands  :top :bottom       switch active panel\n" ++
  "          :up                transfer bottom -> top\n" ++
  "          :down              transfer top -> bottom\n" ++
  "          :back :clear :eval edit the active panel\n" ++
  "          :set KEY VALUE     change a setting (transferMode, theme, haptics)\n" ++
  "          :show :help :quit"

/-- Writes a text as it is. -/
def write (text : String) : Step Unit := fun session =>
  let written := session.sink.write (Text.encode text)
  let next := { session with sink := written.2 }
  if written.1 then .ok () next else .error (.output Sink.full) next

/-- Writes a line. -/
def writeLine (text : String) : Step Unit := write (text ++ "\n")

/-- Asks for the next line. -/
def ask : Step Unit := fun session => write (session.active.name ++ "> ") session

/-- Shows both panels. -/
def showPanels : Step Unit := fun session =>
  writeLine (view session.calculator session.active) session

/-- Acts on the active panel. -/
def act (action : Panel.Action) : Step Unit :=
  modify fun session =>
    { session with calculator := session.calculator.after (.panel session.active action) }

/-- Lets one panel give its value to another one, and says what has become of it. -/
def transfer (source target : PanelId) : Step Unit := fun session =>
  match session.calculator.transfer source target with
  | .ok next =>
      writeLine ("transferred " ++ source.name ++ " -> " ++ target.name)
        { session with calculator := next }
  | .error (.transferRefused reason) => writeLine ("nothing to transfer: " ++ reason) session
  | .error fault => .error fault session

/-- Changes a setting, or says why it cannot be changed. -/
def set (key value : String) : Step Unit := fun session =>
  match session.calculator.set key value with
  | .ok next =>
      .ok () { session with
        calculator := next
        tally := session.tally.afterSet key (next ≠ session.calculator) }
  | .error fault => writeLine fault.message session

/-- Obeys a command. Answers whether the session goes on. -/
def obey : Command → Step Bool
  | .activate id => do
      modify fun session => { session with active := id }
      return true
  | .transfer source target => do
      transfer source target
      return true
  | .act action => do
      act action
      return true
  | .set key value => do
      set key value
      return true
  | .incompleteSet => do
      writeLine "usage: :set KEY VALUE"
      return true
  | .redraw => return true
  | .help => do
      writeLine helpText
      return true
  | .quit => return false
  | .unknown name => do
      writeLine ("unknown command ':" ++ name ++ "' (try :help)")
      return true

/-- Takes a key stroke. -/
def stroke : Stroke → Step Unit
  | .act action => act action
  | .gap => return ()
  | .unknown char => writeLine ("ignored key '" ++ char.toString ++ "'")

/-- Takes a line. Answers whether the session goes on. -/
def enter (text : String) : Step Bool :=
  match Line.parse text with
  | .command command => obey command
  | .keys strokes => do
      strokes.forM stroke
      return true

/-- Counts a line. -/
def countLine : Step Unit :=
  modify fun session => { session with tally := session.tally.afterLine }

/-- Reads a line. Answers whether the session goes on, in which case both panels are shown and the
next line is asked for. -/
def readLine (line : List UInt8) : Step Bool :=
  match Text.decode? line with
  | none => throw (.input Text.notUtf8)
  | some text => do
      countLine
      let goesOn ← enter text
      if goesOn then
        showPanels
        ask
      return goesOn

/-- Reads lines until they end or one of them ends the session. -/
def readLines : List (List UInt8) → Step Unit
  | [] => return ()
  | line :: others => do
      let goesOn ← readLine line
      if goesOn then readLines others

/-- Runs a session on a script. -/
def run (script : List UInt8) : Step Unit := do
  ask
  readLines (Text.lines script)

end Session
end PanelCalc
