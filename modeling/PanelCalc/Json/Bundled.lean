import PanelCalc.Json.Package
import PanelCalc.Json.Reader

/-!
# The bundled JSON package

A JSON package without a limit to the depth of its texts. Objects are read member by member: a key
that no field has is skipped together with its value, and a field that is given again is refused.
-/

namespace PanelCalc.Json

/-- The value that a document gives to a choice: it names the value, or has the name as its only key
over `null`. -/
def Choice.read? {Value : Type} (choice : Choice Value) : Document → Option Value
  | .string (some text) => choice.values.find? fun value => choice.name value = text
  | .object [(some text, .null)] => choice.values.find? fun value => choice.name value = text
  | _ => none

/-- The value that a document stands for. -/
def Form.read? {Value : Type} : Form Value → Document → Option Value
  | .flag, .bool value => some value
  | .flag, _ => none
  | .choice names, document => names.read? document

/-! ## Texts -/

/-- The digit for a number below sixteen. -/
def hexDigit (value : Nat) : Char := Nat.digitChar value

/-- How a character is written in a string. Control characters are written as UTF-16 units. -/
def writeChar (char : Char) : List Char :=
  if char = '"' || char = '\\' then ['\\', char]
  else if char.toNat < 0x20 then
    ['\\', 'u', '0', '0', hexDigit (char.toNat / 16), hexDigit (char.toNat % 16)]
  else [char]

/-- How a string is written. -/
def writeString (text : String) : List Char := '"' :: (text.toList.flatMap writeChar ++ ['"'])

mutual

/-- How a document is written, without white space. A string that no text can hold is written as
an empty one. -/
def writeDocument : Document → List Char
  | .null => ['n', 'u', 'l', 'l']
  | .bool true => ['t', 'r', 'u', 'e']
  | .bool false => ['f', 'a', 'l', 's', 'e']
  | .number => ['0']
  | .string text => writeString (text.getD "")
  | .array items => '[' :: (writeItems items ++ [']'])
  | .object members => '\x7b' :: (writeMembers members ++ ['\x7d'])

/-- How the items of an array are written. -/
def writeItems : List Document → List Char
  | [] => []
  | [item] => writeDocument item
  | item :: next :: others => writeDocument item ++ ',' :: writeItems (next :: others)

/-- How the members of an object are written. -/
def writeMembers : List (Option String × Document) → List Char
  | [] => []
  | [(key, document)] => writeString (key.getD "") ++ ':' :: writeDocument document
  | (key, document) :: next :: others =>
      writeString (key.getD "") ++
        ':' :: (writeDocument document ++ ',' :: writeMembers (next :: others))

end

namespace Record

variable {Data : Type}

/-- Puts the members of an object into some data. The keys of fields that have been given before
are `seen`. -/
def fill? (record : Record Data) (seen : List String) (data : Data) :
    List (Option String × Document) → Option Data
  | [] => some data
  | (none, _) :: _ => none
  | (some key, document) :: others =>
      match record.fields.find? fun field => field.key = key with
      | none => record.fill? seen data others
      | some field =>
          if key ∈ seen then none
          else
            match field.form.read? document with
            | none => none
            | some value => record.fill? (key :: seen) (field.put data value) others

/-- Puts the items of an array into some data, one for each field from the first one on. -/
def list? : List (Field Data) → Data → List Document → Option Data
  | _, data, [] => some data
  | [], _, _ :: _ => none
  | field :: fields, data, document :: others =>
      match field.form.read? document with
      | none => none
      | some value => list? fields (field.put data value) others

/-- The data that a document stands for. -/
def read? (record : Record Data) : Document → Option Data
  | .object members => record.fill? [] record.usual members
  | .array items => list? record.fields record.usual items
  | _ => none

end Record

/-- The bundled package. -/
instance bundled : Package where
  read reader text :=
    match Json.read? text with
    | none => .error "not a JSON text"
    | some document => reader document
  write document := String.ofList (writeDocument document)
  reader record document :=
    match record.read? document with
    | none => .error "other data than declared"
    | some data => .ok data
  writer record data := record.write data

end PanelCalc.Json
