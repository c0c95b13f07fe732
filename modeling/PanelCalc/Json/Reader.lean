import PanelCalc.Json.Document
import PanelCalc.Json.Mark

/-!
# Reading JSON documents

A reader takes the marks of a text one by one. The arrays and objects that are still open wait on
a stack, so that a text may be nested as deeply as it likes.
-/

namespace PanelCalc.Json

/-- An array or object that is still open. -/
inductive Open where
  /-- An array with the items before the one being read, the latest first. -/
  | array (items : List Document)
  /-- An object with the members before the one being read, the latest first, and its key. -/
  | object (members : List (Option String × Document)) (key : Option String)

/-- What has to come next. -/
inductive Due where
  /-- A value, or the end of the innermost array if it was opened just now. -/
  | value (opened : Bool)
  /-- A key of an object with these members so far, or its end if it was opened just now. -/
  | key (members : List (Option String × Document)) (opened : Bool)
  /-- The colon behind a key. -/
  | colon (members : List (Option String × Document)) (key : Option String)
  /-- What may follow a value: a separator, the end of what is open, or the end of the text. -/
  | separator (value : Document)

/-- A document being read. -/
structure Reader where
  /-- What is still open, the innermost first. -/
  opened : List Open := []
  due : Due := .value false

namespace Reader

/-- Takes a mark where a value is due. -/
def takeValue (opened : List Open) (atStart : Bool) : Mark → Option Reader
  | .null => some ⟨opened, .separator .null⟩
  | .bool value => some ⟨opened, .separator (.bool value)⟩
  | .number => some ⟨opened, .separator .number⟩
  | .string text => some ⟨opened, .separator (.string text)⟩
  | .openArray => some ⟨.array [] :: opened, .value true⟩
  | .openObject => some ⟨opened, .key [] true⟩
  | .closeArray =>
      match atStart, opened with
      | true, .array items :: below => some ⟨below, .separator (.array items.reverse)⟩
      | _, _ => none
  | .closeObject | .comma | .colon => none

/-- Takes a mark where a key is due. -/
def takeKey (opened : List Open) (members : List (Option String × Document)) (atStart : Bool) :
    Mark → Option Reader
  | .string key => some ⟨opened, .colon members key⟩
  | .closeObject =>
      if atStart then some ⟨opened, .separator (.object members.reverse)⟩ else none
  | _ => none

/-- Takes a mark behind a value. -/
def takeSeparator (value : Document) : List Open → Mark → Option Reader
  | .array items :: below, .comma => some ⟨.array (value :: items) :: below, .value false⟩
  | .array items :: below, .closeArray =>
      some ⟨below, .separator (.array (value :: items).reverse)⟩
  | .object members key :: below, .comma => some ⟨below, .key ((key, value) :: members) false⟩
  | .object members key :: below, .closeObject =>
      some ⟨below, .separator (.object ((key, value) :: members).reverse)⟩
  | _, _ => none

/-- Takes the next mark; `none` if it cannot stand there. -/
def take (reader : Reader) (mark : Mark) : Option Reader :=
  match reader.due with
  | .value atStart => takeValue reader.opened atStart mark
  | .key members atStart => takeKey reader.opened members atStart mark
  | .colon members key =>
      if mark = .colon then some ⟨.object members key :: reader.opened, .value false⟩ else none
  | .separator value => takeSeparator value reader.opened mark

/-- The document that has been read when nothing follows any more. -/
def result (reader : Reader) : Option Document :=
  match reader.due, reader.opened with
  | .separator value, [] => some value
  | _, _ => none

/-- Reads the rest of a text. -/
def run (reader : Reader) (text : List Char) : Option Document :=
  match _found : scan text with
  | .finished => reader.result
  | .malformed => none
  | .found mark behind =>
      match reader.take mark with
      | none => none
      | some next => next.run behind
termination_by text.length
decreasing_by exact length_scan_lt _found

end Reader

/-- The document that a text stands for. -/
def read? (text : String) : Option Document := Reader.run {} text.toList

end PanelCalc.Json
