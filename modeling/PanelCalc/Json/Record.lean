import PanelCalc.Json.Document

/-!
# Records kept as JSON

What a program declares about data that it keeps as a JSON object: a key for each field, and the
form in which the field's values are written. How records are read and written follows from their
declarations alone.
-/

namespace PanelCalc.Json

/-- Values that are written by their names. -/
structure Choice (Value : Type) where
  values : List Value
  name : Value → String
  listed : ∀ value, value ∈ values
  apart : ∀ first second, name first = name second → first = second

/-- The form of a value. -/
inductive Form : Type → Type 1 where
  /-- Yes or no. -/
  | flag : Form Bool
  | choice {Value : Type} (choice : Choice Value) : Form Value

/-- The document for a value. -/
def Form.write {Value : Type} : Form Value → Value → Document
  | .flag, value => .bool value
  | .choice names, value => .string (some (names.name value))

/-- A field of some data. -/
structure Field (Data : Type) where
  key : String
  Value : Type
  form : Form Value
  get : Data → Value
  put : Data → Value → Data
  get_put : ∀ data value, get (put data value) = value

/-- The declaration of some data. Nothing belongs to the data but its fields, which do not depend on
one another. -/
structure Record (Data : Type) where
  /-- The data whose values missing fields have. -/
  usual : Data
  /-- The fields in the order in which they are written. -/
  fields : List (Field Data)
  nodup : (fields.map Field.key).Nodup
  get_put_of_ne : ∀ field ∈ fields, ∀ other ∈ fields, field.key ≠ other.key →
    ∀ data value, field.get (other.put data value) = field.get data
  ext : ∀ first second, (∀ field ∈ fields, field.get first = field.get second) → first = second

namespace Record

variable {Data : Type} (record : Record Data)

/-- The keys of all fields. -/
def keys : List String := record.fields.map Field.key

/-- The document for some data: an object with a member for each field. -/
def write (data : Data) : Document :=
  .object (record.fields.map fun field => (some field.key, field.form.write (field.get data)))

end Record

end PanelCalc.Json
