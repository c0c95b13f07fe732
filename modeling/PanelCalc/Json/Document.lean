/-!
# JSON documents

What a JSON text stands for, as far as the calculator can tell: no setting is a number, so numbers
carry no value, and members of objects keep their order and may repeat.
-/

namespace PanelCalc.Json

/-- A JSON value. A string is `none` when an escape in it names half of a surrogate pair, which no
text can hold. -/
inductive Document where
  | null
  | bool (value : Bool)
  | number
  | string (text : Option String)
  | array (items : List Document)
  | object (members : List (Option String × Document))

end PanelCalc.Json
