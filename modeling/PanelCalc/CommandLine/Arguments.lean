import PanelCalc.CommandLine.Request

/-!
# The bundled parser

A parser of command lines in which an option is followed by its value, or holds it behind an equals
sign.
-/

namespace PanelCalc.CommandLine

/-- The option with a long name. -/
def Flag.ofName? (name : String) : Option Flag :=
  [expression, settings, transferMode, logLevel].find? fun flag => flag.name = name

/-- A text cut at its first equals sign. -/
def cutAtEquals (text : List Char) : List Char × Option (List Char) :=
  match text.dropWhile (· ≠ '=') with
  | [] => (text, none)
  | _ :: value => (text.takeWhile (· ≠ '='), some value)

/-- The option in an argument, and its value if the argument holds that too. -/
def option? (argument : String) : Option (Flag × Option String) :=
  match argument.toList with
  | '-' :: '-' :: long =>
      let cut := cutAtEquals long
      (Flag.ofName? (String.ofList cut.1)).map fun flag => (flag, cut.2.map String.ofList)
  | ['-', 'e'] => some (.expression, none)
  | '-' :: 'e' :: '=' :: value => some (.expression, some (String.ofList value))
  | '-' :: 'e' :: value => some (.expression, some (String.ofList value))
  | _ => none

/-- What a user can ask about the program itself. -/
inductive Notice where
  | help
  | version
  deriving DecidableEq, Repr

/-- The notice that an argument asks for. Its short names may stand in front of anything. -/
def Notice.ofArgument? (argument : String) : Option Notice :=
  match argument.toList with
  | '-' :: 'h' :: _ => some .help
  | '-' :: 'V' :: _ => some .version
  | _ =>
      if argument = "--help" then some .help
      else if argument = "--version" then some .version
      else none

/-- What a notice says. -/
def Notice.text : Notice → String
  | help =>
      "Dual-panel arithmetic calculator\n\n" ++
      "Usage: doublecal [OPTIONS]\n\n" ++
      "  -e, --eval EXPR       evaluate one expression, print the result and exit\n" ++
      "  --settings PATH       keep the settings in this file\n" ++
      "  --transfer-mode MODE  overwrite or append, for this session only\n" ++
      "  --log-level LEVEL     how much is logged\n" ++
      "  -h, --help            print this text\n" ++
      "  -V, --version         print the version\n"
  | version => "doublecal_core 0.1.0\n"

/-- Whether an argument can be the value of an option before it. A lone dash can. -/
def isValue (argument : String) : Bool :=
  argument.toList.head? ≠ some '-' || argument = "-"

/-- Reads the arguments behind those already read into a request. An argument that asks for a notice
ends the reading: whatever stands behind it does not count, and mistakes before it do. -/
def read? (request : Request) : List String → Option Task
  | [] => some (.perform request)
  | "--" :: others => if others = [] then some (.perform request) else none
  | argument :: others =>
      match Notice.ofArgument? argument with
      | some notice => some (.tell notice.text)
      | none =>
          match option? argument, others with
          | some (flag, some value), others =>
              match request.put? flag value with
              | some filled => read? filled others
              | none => none
          | some (flag, none), value :: others =>
              if isValue value then
                match request.put? flag value with
                | some filled => read? filled others
                | none => none
              else none
          | some (_, none), [] => none
          | none, _ => none

instance Parser.bundled : Parser where
  read? arguments := CommandLine.read? {} arguments

end PanelCalc.CommandLine
