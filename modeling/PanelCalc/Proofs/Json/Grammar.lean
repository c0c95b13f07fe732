import PanelCalc.Json.Document
import PanelCalc.Json.Mark

/-!
# The grammar of JSON

Which texts a document can be written as, `Json.Written`, said by the rules of the grammar and
without a reader: white space wherever it may stand, numbers in all their forms, and strings whose
characters are written as themselves, by a short escape or by UTF-16 units.
-/

namespace PanelCalc.Json

/-- A stretch of white space, which may be empty. -/
def IsBlank (text : List Char) : Prop :=
  ∀ char ∈ text, char ∈ [' ', '\t', '\r', '\n']

/-! ## Numbers -/

/-- A row of at least one digit. -/
def IsDigits (text : List Char) : Prop :=
  text ≠ [] ∧ ∀ char ∈ text, Decimal.isDigit char = true

/-- The whole part of a number, in which nothing follows a leading zero. -/
inductive IsWhole : List Char → Prop
  | zero : IsWhole ['0']
  | digits {text : List Char} :
      IsDigits text → text.head? ≠ some '0' → IsWhole text

/-- The fraction of a number, if it has one. -/
inductive IsFraction : List Char → Prop
  | missing : IsFraction []
  | digits {text : List Char} : IsDigits text → IsFraction ('.' :: text)

/-- The exponent of a number, if it has one. -/
inductive IsExponent : List Char → Prop
  | missing : IsExponent []
  | digits {letter : Char} {sign text : List Char} :
      letter ∈ ['e', 'E'] → sign ∈ [[], ['+'], ['-']] → IsDigits text →
        IsExponent (letter :: (sign ++ text))

/-- A number. -/
inductive IsNumber : List Char → Prop
  | parts {sign whole fraction exponent : List Char} :
      sign ∈ [[], ['-']] → IsWhole whole → IsFraction fraction → IsExponent exponent →
        IsNumber (sign ++ (whole ++ (fraction ++ exponent)))

/-! ## Strings -/

/-- The characters with an escape of their own, behind the letters of their escapes. -/
def escapes : List (Char × Char) :=
  [('"', '"'), ('\\', '\\'), ('/', '/'), ('b', '\x08'), ('f', '\x0c'), ('n', '\n'), ('r', '\r'),
    ('t', '\t')]

/-- The hexadecimal digits, each at the place of its value. -/
def hexDigits : List Char :=
  ['0', '1', '2', '3', '4', '5', '6', '7', '8', '9', 'a', 'b', 'c', 'd', 'e', 'f']

/-- A hexadecimal digit, which may be a capital, and its value. -/
def IsHex (char : Char) (value : Nat) : Prop :=
  hexDigits[value]? = some char ∨ (hexDigits.map Char.toUpper)[value]? = some char

/-- The pieces that the inside of a string is written with. -/
inductive Spells : List Char → List Piece → Prop
  | nothing : Spells [] []
  | plain {char : Char} {text : List Char} {pieces : List Piece} :
      0x20 ≤ char.toNat → char ≠ '"' → char ≠ '\\' → Spells text pieces →
        Spells (char :: text) (.char char :: pieces)
  | escape {letter char : Char} {text : List Char} {pieces : List Piece} :
      (letter, char) ∈ escapes → Spells text pieces →
        Spells ('\\' :: letter :: text) (.char char :: pieces)
  | unit {first second third fourth : Char} {a b c d : Nat} {text : List Char}
      {pieces : List Piece} :
      IsHex first a → IsHex second b → IsHex third c → IsHex fourth d → Spells text pieces →
        Spells ('\\' :: 'u' :: first :: second :: third :: fourth :: text)
          (.unit (((a * 16 + b) * 16 + c) * 16 + d) :: pieces)

/-- The characters that pieces stand for. A UTF-16 unit is a character by itself, or the half of a
pair for a character past `0xFFFF`. -/
inductive Denotes : List Piece → List Char → Prop
  | nothing : Denotes [] []
  | char {char : Char} {pieces : List Piece} {chars : List Char} :
      Denotes pieces chars → Denotes (.char char :: pieces) (char :: chars)
  | unit {char : Char} {pieces : List Piece} {chars : List Char} :
      Denotes pieces chars → Denotes (.unit char.toNat :: pieces) (char :: chars)
  | pair {char : Char} {high low : Nat} {pieces : List Piece} {chars : List Char} :
      high < 0x400 → low < 0x400 → char.toNat = 0x10000 + high * 0x400 + low →
      Denotes pieces chars →
        Denotes (.unit (0xD800 + high) :: .unit (0xDC00 + low) :: pieces) (char :: chars)

/-- A string as it is written, and the text it holds: none if the pieces between its quotation
marks, with half of a surrogate pair among them, stand for no characters. -/
inductive IsString : List Char → Option String → Prop
  | quoted {body : List Char} {pieces : List Piece} {text : Option String} :
      Spells body pieces → (∀ known, text = some known ↔ Denotes pieces known.toList) →
        IsString ('"' :: (body ++ ['"'])) text

/-! ## Documents -/

/-- The parts of a text that are written with other parts. -/
inductive Part where
  | value (document : Document)
  /-- A value with the white space around it. -/
  | element (document : Document)
  /-- What stands between the brackets of an array. -/
  | items (documents : List Document)
  | member (member : Option String × Document)
  /-- What stands between the brackets of an object. -/
  | members (members : List (Option String × Document))

/-- The texts that a part can be written as. -/
inductive Writes : Part → List Char → Prop
  | null : Writes (.value .null) ['n', 'u', 'l', 'l']
  | yes : Writes (.value (.bool true)) ['t', 'r', 'u', 'e']
  | no : Writes (.value (.bool false)) ['f', 'a', 'l', 's', 'e']
  | number {text : List Char} : IsNumber text → Writes (.value .number) text
  | string {text : List Char} {held : Option String} :
      IsString text held → Writes (.value (.string held)) text
  | array {text : List Char} {documents : List Document} :
      Writes (.items documents) text → Writes (.value (.array documents)) ('[' :: (text ++ [']']))
  | object {text : List Char} {members : List (Option String × Document)} :
      Writes (.members members) text →
        Writes (.value (.object members)) ('\x7b' :: (text ++ ['\x7d']))
  | element {before text after : List Char} {document : Document} :
      IsBlank before → Writes (.value document) text → IsBlank after →
        Writes (.element document) (before ++ (text ++ after))
  | noItem {text : List Char} : IsBlank text → Writes (.items []) text
  | oneItem {text : List Char} {document : Document} :
      Writes (.element document) text → Writes (.items [document]) text
  | moreItems {text rest : List Char} {document next : Document} {others : List Document} :
      Writes (.element document) text → Writes (.items (next :: others)) rest →
        Writes (.items (document :: next :: others)) (text ++ ',' :: rest)
  | member {before name after text : List Char} {key : Option String} {document : Document} :
      IsBlank before → IsString name key → IsBlank after → Writes (.element document) text →
        Writes (.member (key, document)) (before ++ (name ++ (after ++ ':' :: text)))
  | noMember {text : List Char} : IsBlank text → Writes (.members []) text
  | oneMember {text : List Char} {member : Option String × Document} :
      Writes (.member member) text → Writes (.members [member]) text
  | moreMembers {text rest : List Char} {member next : Option String × Document}
      {others : List (Option String × Document)} :
      Writes (.member member) text → Writes (.members (next :: others)) rest →
        Writes (.members (member :: next :: others)) (text ++ ',' :: rest)

/-- A text of a document. -/
def Written (document : Document) (text : String) : Prop :=
  Writes (.element document) text.toList

end PanelCalc.Json
