import PanelCalc.Decimal.Numeral
import PanelCalc.Token

/-!
# Reading tokens

A cursor stands in a text and hands out one token after the other. `Cursor.next` either consumes
at least one character, or has reached the end, or is stuck before a character that begins no
token; `Cursor.tokens` collects what it hands out until the end or the first fault.
-/

namespace PanelCalc

namespace Token

/-- The blanks that may stand between tokens. -/
def isGap (char : Char) : Bool := char = ' ' || char = '\t' || char = '\r' || char = '\n'

/-- Whether a character can begin a numeral. -/
def startsNumeral (char : Char) : Bool := Decimal.isDigit char || char = '.'

/-- Splits a text behind its longest beginning of digits with at most one point; with none, if one
was `pointSeen` before. -/
def splitNumeral (pointSeen : Bool) : List Char → List Char × List Char
  | [] => ([], [])
  | char :: rest =>
      if Decimal.isDigit char then
        let split := splitNumeral pointSeen rest
        (char :: split.1, split.2)
      else if char = '.' && !pointSeen then
        let split := splitNumeral true rest
        (char :: split.1, split.2)
      else ([], char :: rest)

/-- Splitting loses nothing. -/
theorem splitNumeral_append (pointSeen : Bool) (text : List Char) :
    (splitNumeral pointSeen text).1 ++ (splitNumeral pointSeen text).2 = text := by
  induction text generalizing pointSeen with
  | nil => rfl
  | cons char rest recurse =>
      simp only [splitNumeral]
      split
      · simp [recurse]
      · split <;> simp [recurse]

/-- A text that begins like a numeral has a numeral split off. -/
theorem splitNumeral_ne_nil {char : Char} (rest : List Char) (starts : startsNumeral char = true) :
    (splitNumeral false (char :: rest)).1 ≠ [] := by
  simp only [startsNumeral, Bool.or_eq_true, decide_eq_true_eq] at starts
  rcases starts with digit | rfl
  · simp [splitNumeral, digit]
  · simp only [splitNumeral]
    split <;> simp

end Token

/-- A place in a text that is being read. -/
structure Cursor where
  /-- What is still to be read. -/
  rest : List Char
  /-- The byte offset of `rest` in the UTF-8 form of the text. -/
  offset : Nat
  deriving DecidableEq, Repr

namespace Cursor

/-- The beginning of a text. -/
def start (text : String) : Cursor := ⟨text.toList, 0⟩

/-- The first place that is not a gap between tokens. -/
def skipGaps (cursor : Cursor) : Cursor :=
  ⟨cursor.rest.dropWhile Token.isGap,
    cursor.offset + (cursor.rest.takeWhile Token.isGap).length⟩

/-- Reads the numeral at the cursor. A bare point and a numeral past the finite range are faults,
and the cursor stands behind them too. -/
def numeral (cursor : Cursor) : Except Fault (Option Token) × Cursor :=
  let split := Token.splitNumeral false cursor.rest
  let raw := String.ofList split.1
  (match Decimal.read? split.1 with
    | some value => .ok (some (.number value raw))
    | none => .error (.invalidNumber raw cursor.offset),
    ⟨split.2, cursor.offset + split.1.length⟩)

/-- Reads the next token: `none` at the end of the text. The cursor stays before a character that
begins no token. -/
def next (cursor : Cursor) : Except Fault (Option Token) × Cursor :=
  let here := cursor.skipGaps
  match here.rest with
  | [] => (.ok none, here)
  | char :: rest =>
      let behind := ⟨rest, here.offset + char.utf8Size⟩
      if char = '(' then (.ok (some (.paren .opening)), behind)
      else if char = ')' then (.ok (some (.paren .closing)), behind)
      else if Token.startsNumeral char then here.numeral
      else
        match Operator.ofChar? char with
        | some op => (.ok (some (.operator op)), behind)
        | none => (.error (.invalidCharacter char here.offset), here)

theorem length_skipGaps_le (cursor : Cursor) :
    cursor.skipGaps.rest.length ≤ cursor.rest.length := by
  simpa [skipGaps] using (List.dropWhile_sublist Token.isGap (l := cursor.rest)).length_le

/-- Reading a numeral moves on. -/
theorem length_numeral_lt {cursor : Cursor} {char : Char} {rest : List Char}
    (here : cursor.rest = char :: rest) (starts : Token.startsNumeral char = true) :
    cursor.numeral.2.rest.length < cursor.rest.length := by
  have behind : cursor.numeral.2.rest = (Token.splitNumeral false cursor.rest).2 := rfl
  have whole := congrArg List.length (Token.splitNumeral_append false cursor.rest)
  have moved := Token.splitNumeral_ne_nil rest starts
  rw [← here] at moved
  have positive := List.length_pos_iff.2 moved
  rw [List.length_append] at whole
  rw [behind]
  omega

/-- Handing out a token moves on. -/
theorem length_next_lt {cursor after : Cursor} {token : Token}
    (read : cursor.next = (.ok (some token), after)) :
    after.rest.length < cursor.rest.length := by
  refine Nat.lt_of_lt_of_le ?_ cursor.length_skipGaps_le
  unfold next at read
  revert read
  generalize cursor.skipGaps = here
  intro read
  cases text : here.rest with
  | nil => simp [text] at read
  | cons char rest =>
      simp only [text] at read
      split at read
      · cases read; simp
      · split at read
        · cases read; simp
        · split at read
          · rename_i starts
            have moved := length_numeral_lt text starts
            rw [read, text] at moved
            exact moved
          · split at read
            · cases read; simp
            · simp at read

/-- All tokens from the cursor on, or the first fault. -/
def tokens (cursor : Cursor) : Except Fault (List Token) :=
  match _next : cursor.next with
  | (.error fault, _) => .error fault
  | (.ok none, _) => .ok []
  | (.ok (some token), after) =>
      match after.tokens with
      | .error fault => .error fault
      | .ok others => .ok (token :: others)
termination_by cursor.rest.length
decreasing_by exact length_next_lt _next

end Cursor

/-- The tokens of a text. -/
def Token.read (text : String) : Except Fault (List Token) := (Cursor.start text).tokens

end PanelCalc
