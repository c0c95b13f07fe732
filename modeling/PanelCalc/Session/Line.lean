import PanelCalc.Calculator
import PanelCalc.Keypad
import PanelCalc.Text.Blank

/-!
# Lines of a session

What a user may enter: a command behind a colon, or keys for the active panel.
-/

namespace PanelCalc.Session

/-- The commands of a session. -/
inductive Command where
  /-- Makes a panel the active one. -/
  | activate (id : PanelId)
  | transfer (source target : PanelId)
  /-- Acts on the active panel. -/
  | act (action : Panel.Action)
  | set (key value : String)
  /-- A setting without a key or without a value. -/
  | incompleteSet
  | redraw
  | help
  | quit
  | unknown (name : String)
  deriving DecidableEq, Repr

/-- The command with a name and further words. -/
def Command.ofWords (name : String) (arguments : List String) : Command :=
  if name = "top" then .activate .top
  else if name = "bottom" then .activate .bottom
  else if name = "up" then .transfer .bottom .top
  else if name = "down" then .transfer .top .bottom
  else if name = "back" then .act .backspace
  else if name = "clear" then .act .clear
  else if name = "eval" then .act .evaluate
  else if name = "set" then
    match arguments with
    | key :: value :: _ => .set key value
    | _ => .incompleteSet
  else if name = "show" then .redraw
  else if name = "help" then .help
  else if name = "quit" || name = "q" || name = "exit" then .quit
  else .unknown name

/-- The command written by a text. -/
def Command.parse (text : String) : Command :=
  match Text.words text with
  | [] => .ofWords "" []
  | name :: arguments => .ofWords name arguments

/-- What a character of a key line stands for. -/
inductive Stroke where
  | act (action : Panel.Action)
  /-- White space between keys. -/
  | gap
  | unknown (char : Char)
  deriving DecidableEq, Repr

/-- The stroke of a character. An `x` multiplies. -/
def Stroke.ofChar (char : Char) : Stroke :=
  match Keypad.actionOfChar? (if char = 'x' then '×' else char) with
  | some action => .act action
  | none => if Text.isBlank char then .gap else .unknown char

/-- A line of a session. -/
inductive Line where
  | command (command : Command)
  | keys (strokes : List Stroke)
  deriving DecidableEq, Repr

/-- The line written by a text; white space around it does not count. -/
def Line.parse (text : String) : Line :=
  match (Text.trim text).toList with
  | ':' :: rest => .command (.parse (String.ofList rest))
  | chars => .keys (chars.map Stroke.ofChar)

end PanelCalc.Session
