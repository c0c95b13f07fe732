import PanelCalc.CommandLine

/-!
# The program

Connects the command line to the streams and files of the process. What the program does with them is
decided by the modules it imports.
-/

namespace PanelCalc.Main

open CommandLine

/-- Prints what a session has written and empties its sink. -/
def flush (output : IO.FS.Stream) (session : Session) : IO (Except Fault Unit × Session) := do
  let next := { session with sink := {} }
  try
    output.write ⟨session.sink.written⟩
    output.flush
    return (.ok (), next)
  catch cause => return (.error (.output (toString cause)), next)

/-- Takes a step of a session and prints what it writes. -/
def perform {α : Type} (output : IO.FS.Stream) (step : Session.Step α) (session : Session) :
    IO (Except Fault α × Session) := do
  let (answer, next) := match step session with
    | .ok answer next => (.ok answer, next)
    | .error fault next => (.error fault, next)
  match ← flush output next with
  | (.ok _, flushed) => return (answer, flushed)
  | (.error fault, flushed) => return (.error fault, flushed)

/-- The bytes of the next line with its end, behind those read before. There are none at the end of
the input. -/
partial def nextLine (input : IO.FS.Stream) (before : Array UInt8) : IO (Array UInt8) := do
  let chunk ← input.read 1
  match chunk.data.toList with
  | [] => return before
  | byte :: _ =>
      if Text.isLineEnd byte then return before.push byte
      else nextLine input (before.push byte)

/-- Reads lines until they end or the session does. -/
partial def readLines (input output : IO.FS.Stream) (session : Session) :
    IO (Except Fault Unit × Session) := do
  let bytes ← nextLine input #[]
  match Text.lines bytes.toList with
  | [] => return (.ok (), session)
  | line :: _ =>
      match ← perform output (Session.readLine line) session with
      | (.ok true, next) => readLines input output next
      | (.ok false, next) => return (.ok (), next)
      | (.error fault, next) => return (.error fault, next)

/-- Loads settings. A file that is not there holds the usual ones. -/
def load (path : String) : IO (Except Fault Settings) := do
  try
    let content ← IO.FS.readBinFile path
    return Settings.ofBytes path content.data.toList
  catch
    | .noFileOrDirectory .. => return .ok {}
    | cause => return .error (.settingsRead path (toString cause))

/-- Saves settings, making the directory they go to. -/
def save (path : String) (settings : Settings) : IO (Except Fault Unit) := do
  try
    let directory := FileTree.parent path
    if directory ≠ "" then IO.FS.createDirAll directory
    IO.FS.writeFile path settings.toJson
    return .ok ()
  catch cause => return .error (.settingsWrite path (toString cause))

/-- The process as a host. -/
def host (input output : IO.FS.Stream) : Host IO where
  environment :=
    return { home := ← IO.getEnv "HOME", configHome := ← IO.getEnv "XDG_CONFIG_HOME" }
  load := load
  save := save
  converse session := do
    match ← perform output Session.ask session with
    | (.ok _, opened) => readLines input output opened
    | (.error fault, opened) => return (.error fault, opened)
  print text := do
    try
      output.putStr text
      output.flush
      return true
    catch _ => return false
  report := IO.eprintln

end PanelCalc.Main

open PanelCalc in
def main (arguments : List String) : IO UInt32 := do
  let host := Main.host (← IO.getStdin) (← IO.getStdout)
  return (← host.run arguments).toUInt32
