import PanelCalc.Json.Record

/-!
# JSON packages

What the calculator asks of a package that reads and writes JSON texts. It does so in two parts: one
goes between texts and documents and knows nothing of the data, the other one goes between documents
and the data that has been declared to it and knows nothing of texts.
-/

namespace PanelCalc.Json

/-- A package for JSON. -/
class Package where
  /-- Reads a text as what a reader of documents makes of it, or says what is wrong. -/
  read {Data : Type} (reader : Document → Except String Data) (text : String) : Except String Data
  /-- Writes a document as a text. -/
  write (document : Document) : String
  /-- The reader that comes with a declaration. -/
  reader {Data : Type} (record : Record Data) : Document → Except String Data
  /-- The writer that comes with a declaration. -/
  writer {Data : Type} (record : Record Data) : Data → Document

end PanelCalc.Json
