import PanelCalc.Decimal.Numeral

/-!
# Marks of a JSON text

The smallest meaningful parts of a JSON text: brackets, separators and the values that are no
brackets. `scan` reads one mark behind any white space and moves on whenever it finds one.
-/

namespace PanelCalc.Json

/-- A mark of a JSON text. A string is `none` when an escape in it is half of a surrogate pair. -/
inductive Mark where
  | openArray
  | closeArray
  | openObject
  | closeObject
  | comma
  | colon
  | null
  | bool (value : Bool)
  | number
  | string (text : Option String)
  deriving DecidableEq, Repr

/-- The white space of JSON. -/
def isGap (char : Char) : Bool := char = ' ' || char = '\t' || char = '\r' || char = '\n'

/-- A part of a string: a character, or a UTF-16 unit given by its number. -/
inductive Piece where
  | char (value : Char)
  | unit (value : Nat)
  deriving DecidableEq, Repr

/-- The value of a hexadecimal digit. -/
def hexDigit? (char : Char) : Option Nat :=
  if Decimal.isDigit char then some (Decimal.digitValue char)
  else if 'a' ≤ char && char ≤ 'f' then some (char.toNat - 'a'.toNat + 10)
  else if 'A' ≤ char && char ≤ 'F' then some (char.toNat - 'A'.toNat + 10)
  else none

/-- The UTF-16 unit written by four hexadecimal digits. -/
def unit? (first second third fourth : Char) : Option Nat := do
  return 4096 * (← hexDigit? first) + 256 * (← hexDigit? second) + 16 * (← hexDigit? third)
    + (← hexDigit? fourth)

/-- The character written by a backslash and a further character. -/
def escaped? : Char → Option Char
  | '"' => some '"'
  | '\\' => some '\\'
  | '/' => some '/'
  | 'b' => some '\x08'
  | 'f' => some '\x0c'
  | 'n' => some '\n'
  | 'r' => some '\r'
  | 't' => some '\t'
  | _ => none

/-- The pieces of a string up to its closing quotation mark, and the text behind that. -/
def stringBody? : List Char → Option (List Piece × List Char)
  | [] => none
  | '"' :: rest => some ([], rest)
  | '\\' :: 'u' :: first :: second :: third :: fourth :: rest =>
      match unit? first second third fourth, stringBody? rest with
      | some value, some (pieces, behind) => some (.unit value :: pieces, behind)
      | _, _ => none
  | '\\' :: char :: rest =>
      match escaped? char, stringBody? rest with
      | some value, some (pieces, behind) => some (.char value :: pieces, behind)
      | _, _ => none
  | char :: rest =>
      if char.toNat < 0x20 then none
      else (stringBody? rest).map fun (pieces, behind) => (.char char :: pieces, behind)

/-- Whether a UTF-16 unit is the first half of a surrogate pair. -/
def isHighSurrogate (value : Nat) : Bool := 0xD800 ≤ value && value < 0xDC00

/-- Whether a UTF-16 unit is the second half of a surrogate pair. -/
def isLowSurrogate (value : Nat) : Bool := 0xDC00 ≤ value && value < 0xE000

/-- The characters that pieces stand for: each first half of a pair has to be followed by a second
one, and no second half may stand alone. -/
def assemble? : List Piece → Option (List Char)
  | [] => some []
  | .char value :: rest => (assemble? rest).map (value :: ·)
  | .unit high :: .unit low :: rest =>
      if isHighSurrogate high then
        if isLowSurrogate low then
          (assemble? rest).map
            (Char.ofNat (0x10000 + (high - 0xD800) * 0x400 + (low - 0xDC00)) :: ·)
        else none
      else if isLowSurrogate high then none
      else (assemble? (.unit low :: rest)).map (Char.ofNat high :: ·)
  | .unit value :: rest =>
      if isHighSurrogate value || isLowSurrogate value then none
      else (assemble? rest).map (Char.ofNat value :: ·)

/-- The text behind at least one digit. -/
def digits? : List Char → Option (List Char)
  | [] => none
  | char :: rest =>
      if Decimal.isDigit char then some (rest.dropWhile Decimal.isDigit) else none

/-- The text behind the whole part of a number. A leading zero stands alone. -/
def wholePart? : List Char → Option (List Char)
  | '0' :: rest => some rest
  | text => digits? text

/-- The text behind the optional fraction of a number. -/
def fractionPart? : List Char → Option (List Char)
  | '.' :: rest => digits? rest
  | text => some text

/-- The text behind an optional sign. -/
def afterSign : List Char → List Char
  | '+' :: rest => rest
  | '-' :: rest => rest
  | text => text

/-- The text behind the optional exponent of a number. -/
def exponentPart? : List Char → Option (List Char)
  | 'e' :: rest => digits? (afterSign rest)
  | 'E' :: rest => digits? (afterSign rest)
  | text => some text

/-- The text behind a number. -/
def number? (text : List Char) : Option (List Char) := do
  let unsigned := match text with
    | '-' :: rest => rest
    | _ => text
  let whole ← wholePart? unsigned
  let fraction ← fractionPart? whole
  exponentPart? fraction

/-- The mark at the very start of a text, and the text behind it. -/
def mark? : List Char → Option (Mark × List Char)
  | '[' :: rest => some (.openArray, rest)
  | ']' :: rest => some (.closeArray, rest)
  | '\x7b' :: rest => some (.openObject, rest)
  | '\x7d' :: rest => some (.closeObject, rest)
  | ',' :: rest => some (.comma, rest)
  | ':' :: rest => some (.colon, rest)
  | 'n' :: 'u' :: 'l' :: 'l' :: rest => some (.null, rest)
  | 't' :: 'r' :: 'u' :: 'e' :: rest => some (.bool true, rest)
  | 'f' :: 'a' :: 'l' :: 's' :: 'e' :: rest => some (.bool false, rest)
  | '"' :: rest =>
      (stringBody? rest).map fun (pieces, behind) =>
        (.string ((assemble? pieces).map String.ofList), behind)
  | text => (number? text).map fun behind => (.number, behind)

/-- What is found at the start of a text. -/
inductive Scan where
  /-- Nothing but white space. -/
  | finished
  /-- A mark, and the text behind it. -/
  | found (mark : Mark) (behind : List Char)
  /-- Something that begins no mark. -/
  | malformed
  deriving DecidableEq

/-- Looks for the first mark of a text. -/
def scan (text : List Char) : Scan :=
  match text.dropWhile isGap with
  | [] => .finished
  | here =>
      match mark? here with
      | some (mark, behind) => .found mark behind
      | none => .malformed

theorem length_stringBody?_lt {text behind : List Char} {pieces : List Piece}
    (read : stringBody? text = some (pieces, behind)) : behind.length < text.length := by
  fun_induction stringBody? text generalizing pieces with
  | case1 => simp at read
  | case2 rest =>
      cases read
      simp
  | case3 first second third fourth rest value others after body unit recurse =>
      cases read
      have shorter := recurse body
      simp only [List.length_cons]
      omega
  | case4 => simp at read
  | case5 char rest _ value others after body escape recurse =>
      cases read
      have shorter := recurse body
      simp only [List.length_cons]
      omega
  | case6 => simp at read
  | case7 => simp at read
  | case8 char rest _ _ _ _ recurse =>
      obtain ⟨⟨others, after⟩, body, same⟩ := Option.map_eq_some_iff.1 read
      cases same
      have shorter := recurse body
      simp only [List.length_cons]
      omega

theorem length_digits?_lt {text behind : List Char} (read : digits? text = some behind) :
    behind.length < text.length := by
  cases text with
  | nil => simp [digits?] at read
  | cons char rest =>
      simp only [digits?] at read
      split at read
      · cases read
        have shorter := (List.dropWhile_sublist Decimal.isDigit (l := rest)).length_le
        simp only [List.length_cons]
        omega
      · simp at read

theorem length_wholePart?_lt {text behind : List Char} (read : wholePart? text = some behind) :
    behind.length < text.length := by
  unfold wholePart? at read
  split at read
  · cases read
    simp
  · exact length_digits?_lt read

theorem length_fractionPart?_le {text behind : List Char}
    (read : fractionPart? text = some behind) : behind.length ≤ text.length := by
  unfold fractionPart? at read
  split at read
  · exact Nat.le_succ_of_le (Nat.le_of_lt (length_digits?_lt read))
  · cases read
    exact Nat.le_refl _

theorem length_afterSign_le (text : List Char) : (afterSign text).length ≤ text.length := by
  unfold afterSign
  split <;> simp

theorem length_exponentPart?_le {text behind : List Char}
    (read : exponentPart? text = some behind) : behind.length ≤ text.length := by
  unfold exponentPart? at read
  split at read
  · rename_i rest
    have digits := length_digits?_lt read
    have sign := length_afterSign_le rest
    simp only [List.length_cons]
    omega
  · rename_i rest
    have digits := length_digits?_lt read
    have sign := length_afterSign_le rest
    simp only [List.length_cons]
    omega
  · cases read
    exact Nat.le_refl _

theorem length_number?_lt {text behind : List Char} (read : number? text = some behind) :
    behind.length < text.length := by
  simp only [number?, bind, Option.bind_eq_some_iff] at read
  obtain ⟨whole, wholeRead, fraction, fractionRead, exponentRead⟩ := read
  have wholeShorter := length_wholePart?_lt wholeRead
  have fractionShorter := length_fractionPart?_le fractionRead
  have exponentShorter := length_exponentPart?_le exponentRead
  split at wholeShorter
  · simp only [List.length_cons]
    omega
  · omega

/-- Reading a mark moves on. -/
theorem length_mark?_lt {text behind : List Char} {mark : Mark}
    (read : mark? text = some (mark, behind)) : behind.length < text.length := by
  unfold mark? at read
  split at read
  case h_10 =>
    obtain ⟨⟨pieces, after⟩, body, same⟩ := Option.map_eq_some_iff.1 read
    cases same
    exact Nat.lt_succ_of_lt (length_stringBody?_lt body)
  case h_11 =>
    obtain ⟨after, body, same⟩ := Option.map_eq_some_iff.1 read
    cases same
    exact length_number?_lt body
  all_goals
    cases read
    simp only [List.length_cons]
    omega

/-- Finding a mark moves on. -/
theorem length_scan_lt {text behind : List Char} {mark : Mark}
    (found : scan text = .found mark behind) : behind.length < text.length := by
  unfold scan at found
  have shorter := (List.dropWhile_sublist isGap (l := text)).length_le
  split at found
  · simp at found
  · split at found
    · rename_i read
      cases found
      exact Nat.lt_of_lt_of_le (length_mark?_lt read) shorter
    · simp at found

end PanelCalc.Json
