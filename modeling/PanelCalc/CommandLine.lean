import PanelCalc.CommandLine.Arguments
import PanelCalc.Formula
import PanelCalc.Json.Bundled
import PanelCalc.Session.Run
import PanelCalc.Settings.Saved

/-!
# Command line

One expression is computed, or a session is run between loading and saving the settings; or the
user is told about the program. The program ends with status 0, with status 1 after a failure, with
status 2 if it cannot make sense of its arguments, and with status 101 if it cannot print a result.

The program is written for any `Host`: for the streams and files of a process, and for a `Machine`,
on which the program can be reasoned about.
-/

namespace PanelCalc.CommandLine

variable [Parser] [Directories] [Json.Package]

/-- Computes one expression. Answers the status and what is printed. -/
def computeOnce (expression : String) : Nat × String :=
  match Formula.shown expression with
  | .ok value => (0, value ++ "\n")
  | .error _ => (1, errorText ++ "\n")

/-- Where the program finds its directories. -/
structure Environment where
  home : Option String := none
  configHome : Option String := none
  deriving DecidableEq, Repr

/-- The path of the settings that a request and its environment lead to. Without one, a session is
neither loaded nor saved. -/
def settingsPath? (environment : Environment) (request : Request) : Option String :=
  match request.settings with
  | some path => some path
  | none => (Settings.usualPath environment.home environment.configHome).toOption

/-- The settings at the start of a session. -/
def Request.override (request : Request) (loaded : Settings) : Settings :=
  match request.transferMode with
  | some mode => { loaded with transferMode := mode }
  | none => loaded

/-! ## The program -/

/-- What the program runs on. -/
structure Host (m : Type → Type) where
  environment : m Environment
  load : String → m (Except Fault Settings)
  save : String → Settings → m (Except Fault Unit)
  /-- Runs a session on the standard input and output. -/
  converse : Session → m (Except Fault Unit × Session)
  /-- Prints a text. Answers whether all of it has been printed. -/
  print : String → m Bool
  /-- Tells the user what went wrong. -/
  report : String → m Unit

namespace Host

variable {m : Type → Type} [Monad m] (host : Host m)

/-- Reports a fault. Answers the status. -/
def fail (fault : Fault) : m Nat := do
  host.report ("error: " ++ fault.message)
  return 1

/-- Loads settings, or takes the usual ones if that fails or if there is no path. -/
def loadOrUsual : Option String → m Settings
  | none => return {}
  | some path => do
      match ← host.load path with
      | .ok settings => return settings
      | .error _ => return {}

/-- What follows a session: settings that have been chosen in it are saved, unless it has failed.
Answers the status. -/
def keep (request : Request) (path? : Option String) (loaded : Settings) :
    Except Fault Unit × Session → m Nat
  | (.error fault, _) => host.fail fault
  | (.ok _, ended) =>
      let chosen := ended.tally.toSave ended.calculator.settings loaded.transferMode
        request.transferMode
      match chosen, path? with
      | some settings, some path => do
          match ← host.save path settings with
          | .ok _ => return 0
          | .error fault => host.fail fault
      | _, _ => return 0

/-- Runs a session between loading and saving the settings. Answers the status. -/
def runSession (request : Request) : m Nat := do
  let path? := settingsPath? (← host.environment) request
  let loaded ← host.loadOrUsual path?
  host.keep request path? loaded
    (← host.converse { calculator := .start (request.override loaded) })

/-- Runs the program. Answers the status. -/
def run (arguments : List String) : m Nat := do
  match Parser.read? arguments with
  | none =>
      host.report "error: unexpected arguments, try '--help'"
      return 2
  | some (.tell text) =>
      let _ ← host.print text
      return 0
  | some (.perform request) =>
      match request.expression with
      | none => host.runSession request
      | some expression =>
          let (status, printed) := computeOnce expression
          return if ← host.print printed then status else 101

end Host

/-! ## Machines -/

/-- Everything around the program, all of which is known. -/
structure Machine where
  environment : Environment
  tree : FileTree
  /-- The standard input. -/
  script : List UInt8
  /-- The standard output. -/
  sink : Sink
  deriving DecidableEq, Repr

/-- A machine as a host. It forgets what is reported. -/
def Machine.host : Host (StateM Machine) where
  environment := return (← get).environment
  load path := return Settings.load (← get).tree path
  save path settings := fun machine =>
    let saved := Settings.save machine.tree path settings
    (saved.1, { machine with tree := saved.2 })
  converse session := fun machine =>
    match Session.run machine.script { session with sink := machine.sink } with
    | .ok _ ended => ((.ok (), ended), { machine with sink := ended.sink })
    | .error fault ended => ((.error fault, ended), { machine with sink := ended.sink })
  print text := fun machine =>
    let wrote := machine.sink.write (Text.encode text)
    (wrote.1, { machine with sink := wrote.2 })
  report _ := return ()

/-- How the program has ended. -/
structure Ending where
  status : Nat
  output : List UInt8
  tree : FileTree
  deriving DecidableEq, Repr

/-- The ending that a status and a machine show. -/
def Ending.of (ended : Nat × Machine) : Ending :=
  ⟨ended.1, ended.2.sink.written.toList, ended.2.tree⟩

/-- Runs the program on a machine. Its standard output may have limited room. -/
def run (environment : Environment) (tree : FileTree) (arguments : List String)
    (script : List UInt8) (room : Option Nat := none) : Ending :=
  .of ((Machine.host.run arguments).run { environment, tree, script, sink := { room } })

end PanelCalc.CommandLine
