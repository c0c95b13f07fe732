import Mathlib.Data.List.Chain
import Mathlib.Data.List.TakeWhile
import PanelCalc.Expression.Grammar

/-!
# Reading spelled tokens

`Cursor.tokens_of_spelled` reads back the tokens that a text spells, however they are spaced. Two
numerals side by side would be read as one, so the tokens must be `Token.Separated`: where one
operand ends, no other begins. The tokens of every expression are, by
`Expression.Derives.separated`.
-/

namespace PanelCalc

namespace Token

/-- Whether an operand can end with a token. -/
def endsOperand : Token → Bool
  | number _ _ | paren .closing => true
  | operator _ | paren .opening => false

/-- Whether an operand can begin with a token, signs apart. -/
def beginsOperand : Token → Bool
  | number _ _ | paren .opening => true
  | operator _ | paren .closing => false

/-- Whether two tokens do not put two operands side by side. -/
def Apart (left right : Token) : Prop := left.endsOperand = true → right.beginsOperand = false

instance (left right : Token) : Decidable (Apart left right) := by
  unfold Apart
  infer_instance

/-- Whether nowhere in a row of tokens an operand follows another one directly. -/
def Separated (tokens : List Token) : Prop := tokens.IsChain Apart

instance (tokens : List Token) : Decidable (Separated tokens) := by
  unfold Separated
  infer_instance

/-- Tokens on both sides of an operator are separated if each side is. -/
theorem Separated.operator {left right : List Token} (op : Operator) (before : Separated left)
    (behind : Separated right) : Separated (left ++ .operator op :: right) := by
  refine List.isChain_append.mpr ⟨before, ?_, ?_⟩
  · exact behind.cons (by simp [Apart, endsOperand])
  · simp [Apart, beginsOperand]

/-- Tokens inside of parentheses are separated from them. -/
theorem Separated.group {tokens : List Token} (inside : Separated tokens) :
    Separated (.paren .opening :: tokens ++ [.paren .closing]) := by
  refine List.isChain_append.mpr ⟨?_, .singleton _, ?_⟩
  · exact inside.cons (by simp [Apart, endsOperand])
  · simp [Apart, beginsOperand]

end Token

/-- In an expression no operand stands directly behind another one. -/
theorem Expression.Derives.separated {level : Expression.Level} {tokens : List Token}
    {tree : Expression} (derived : Expression.Derives level tokens tree) :
    Token.Separated tokens := by
  induction derived with
  | number => exact .singleton _
  | group _ recurse => exact recurse.group
  | negate _ recurse => exact Token.Separated.operator _ .nil recurse
  | factor _ recurse | term _ recurse => exact recurse
  | product _ _ _ recurseLeft recurseRight | sum _ _ _ recurseLeft recurseRight =>
      exact recurseLeft.operator _ recurseRight

namespace Token

/-- What is split off as a numeral does not change when something follows that cannot continue
it. -/
theorem splitNumeral_followed {rest : List Char}
    (stops : ∀ char ∈ rest.head?, startsNumeral char = false) (pointSeen : Bool)
    (text : List Char) :
    splitNumeral pointSeen (text ++ rest) =
      ((splitNumeral pointSeen text).1, (splitNumeral pointSeen text).2 ++ rest) := by
  induction text generalizing pointSeen with
  | nil =>
      cases rest with
      | nil => rfl
      | cons char others =>
          have stop := stops char rfl
          simp only [startsNumeral, Bool.or_eq_false_iff, decide_eq_false_iff_not] at stop
          simp [splitNumeral, stop.1, stop.2]
  | cons char others recurse =>
      simp only [splitNumeral, List.cons_append]
      split
      · rw [recurse]
      · split
        · rw [recurse]
        · rfl

/-- A numeral goes on to be split off as a whole in front of what cannot continue it. -/
theorem splitNumeral_append_rest {pointSeen : Bool} {raw rest : List Char}
    (whole : splitNumeral pointSeen raw = (raw, []))
    (stops : ∀ char ∈ rest.head?, startsNumeral char = false) :
    splitNumeral pointSeen (raw ++ rest) = (raw, rest) := by
  rw [splitNumeral_followed stops, whole, List.nil_append]

/-- A written number starts like a numeral. -/
theorem IsWritten.startsNumeral {value : Float} {raw : String}
    (written : (number value raw).IsWritten) :
    ∃ char others, raw.toList = char :: others ∧ Token.startsNumeral char = true := by
  obtain ⟨whole, read⟩ := written
  cases text : raw.toList with
  | nil => simp [text, Decimal.read?] at read
  | cons char others =>
      refine ⟨char, others, rfl, ?_⟩
      simp only [text, splitNumeral] at whole
      split at whole
      · rename_i digit
        simp [Token.startsNumeral, digit]
      · split at whole
        · rename_i point
          simp only [Bool.and_eq_true, decide_eq_true_eq] at point
          simp [Token.startsNumeral, point.1]
        · simp at whole

/-- Which character a token other than a number begins with tells it apart from a numeral. -/
theorem startsNumeral_of_text {token : Token} (noNumber : ∀ value raw, token ≠ .number value raw)
    (written : token.IsWritten) :
    ∃ char, token.text.toList = [char] ∧ startsNumeral char = false ∧ isGap char = false := by
  match token with
  | number value raw => exact absurd rfl (noNumber value raw)
  | paren .opening | paren .closing => exact ⟨_, rfl, by decide, by decide⟩
  | operator .negate => exact absurd rfl written
  | operator (.binary .add) | operator (.binary .sub) | operator (.binary .mul)
  | operator (.binary .div) | operator (.binary .rem) => exact ⟨_, rfl, by decide, by decide⟩

theorem startsNumeral_of_isGap {char : Char} (gap : isGap char = true) :
    startsNumeral char = false := by
  simp only [isGap, Bool.or_eq_true, decide_eq_true_eq, or_assoc] at gap
  rcases gap with rfl | rfl | rfl | rfl <;> decide

theorem isGap_of_startsNumeral {char : Char} (starts : startsNumeral char = true) :
    isGap char = false := by
  by_contra gapped
  rw [startsNumeral_of_isGap (by simpa using gapped)] at starts
  exact absurd starts (by decide)

/-- Behind a number, the text of separated tokens does not go on like a numeral. -/
theorem Spelled.stops {tokens : List Token} {text : List Char} (spelled : Spelled tokens text)
    (noNumber : ∀ token ∈ tokens.head?, ∀ value raw, token ≠ .number value raw) :
    ∀ char ∈ text.head?, startsNumeral char = false := by
  cases spelled with
  | @finished gap blank =>
      intro char first
      exact startsNumeral_of_isGap (blank char (List.mem_of_mem_head? first))
  | @token gap token others rest blank written spelled =>
      obtain ⟨sign, text, stop, _⟩ := startsNumeral_of_text (noNumber token rfl) written
      intro char first
      cases gap with
      | nil =>
          rw [text] at first
          cases first
          exact stop
      | cons space spaces =>
          cases first
          exact startsNumeral_of_isGap (blank char (by simp))

end Token

namespace Cursor

/-- Skipping gaps stops in front of the first character that is none. -/
theorem skipGaps_append {gap : List Char} (rest : List Char)
    (blank : ∀ char ∈ gap, Token.isGap char = true)
    (stops : ∀ char ∈ rest.head?, Token.isGap char = false) (offset : Nat) :
    (Cursor.mk (gap ++ rest) offset).skipGaps = ⟨rest, offset + gap.length⟩ := by
  have kept : rest.dropWhile Token.isGap = rest ∧ rest.takeWhile Token.isGap = [] := by
    cases rest with
    | nil => exact ⟨rfl, rfl⟩
    | cons char others => simp [stops char rfl]
  simp [skipGaps, List.dropWhile_append_of_pos blank, List.takeWhile_append_of_pos blank, kept]

/-- Where a numeral can begin, one is read. -/
theorem next_of_startsNumeral {gap : List Char} {char : Char}
    (blank : ∀ char ∈ gap, Token.isGap char = true) (starts : Token.startsNumeral char = true)
    (rest : List Char) (offset : Nat) :
    (Cursor.mk (gap ++ char :: rest) offset).next =
      (Cursor.mk (char :: rest) (offset + gap.length)).numeral := by
  have noGap := Token.isGap_of_startsNumeral starts
  have noOpening : char ≠ '(' := by
    rintro rfl
    exact absurd starts (by decide)
  have noClosing : char ≠ ')' := by
    rintro rfl
    exact absurd starts (by decide)
  rw [next, skipGaps_append (char :: rest) blank (by simp [noGap]) offset]
  simp only [if_neg noOpening, if_neg noClosing, if_pos starts]

/-- A number that does not go on behind its text is handed out with that text. -/
theorem next_number {gap rest : List Char} {value : Float} {raw : String}
    (blank : ∀ char ∈ gap, Token.isGap char = true)
    (written : (Token.number value raw).IsWritten)
    (split : Token.splitNumeral false (raw.toList ++ rest) = (raw.toList, rest)) (offset : Nat) :
    ∃ behind, (Cursor.mk (gap ++ raw.toList ++ rest) offset).next =
      (.ok (some (.number value raw)), ⟨rest, behind⟩) := by
  obtain ⟨char, others, text, starts⟩ := written.startsNumeral
  refine ⟨offset + gap.length + raw.toList.length, ?_⟩
  rw [List.append_assoc, text, List.cons_append, next_of_startsNumeral blank starts,
    ← List.cons_append, ← text, numeral]
  simp [split, written.2]

/-- A sign or parenthesis is handed out whatever follows it. -/
theorem next_sign {gap rest : List Char} {token : Token}
    (blank : ∀ char ∈ gap, Token.isGap char = true) (written : token.IsWritten)
    (noNumber : ∀ value raw, token ≠ .number value raw) (offset : Nat) :
    ∃ behind, (Cursor.mk (gap ++ token.text.toList ++ rest) offset).next =
      (.ok (some token), ⟨rest, behind⟩) := by
  obtain ⟨char, text, _, noGap⟩ := Token.startsNumeral_of_text noNumber written
  have here := skipGaps_append (char :: rest) blank (by simp [noGap]) offset
  refine ⟨offset + gap.length + char.utf8Size, ?_⟩
  rw [List.append_assoc, text, List.singleton_append, next, here]
  match token with
  | .number value raw => exact absurd rfl (noNumber value raw)
  | .paren .opening | .paren .closing => cases text; rfl
  | .operator .negate => exact absurd rfl written
  | .operator (.binary .add) | .operator (.binary .sub) | .operator (.binary .mul)
  | .operator (.binary .div) | .operator (.binary .rem) => cases text; rfl

/-- A token is handed out wherever it stands behind a gap, and a number if it does not go on. -/
theorem next_token {gap rest : List Char} {token : Token}
    (blank : ∀ char ∈ gap, Token.isGap char = true) (written : token.IsWritten)
    (split : ∀ value raw, token = .number value raw →
      Token.splitNumeral false (raw.toList ++ rest) = (raw.toList, rest)) (offset : Nat) :
    ∃ behind, (Cursor.mk (gap ++ token.text.toList ++ rest) offset).next =
      (.ok (some token), ⟨rest, behind⟩) := by
  by_cases isNumber : ∃ value raw, token = .number value raw
  · obtain ⟨value, raw, rfl⟩ := isNumber
    exact next_number blank written (split value raw rfl) offset
  · exact next_sign blank written (by simpa using isNumber) offset

theorem tokens_of_next_error {cursor after : Cursor} {fault : Fault}
    (stuck : cursor.next = (.error fault, after)) : cursor.tokens = .error fault := by
  rw [tokens]
  split <;> simp_all

theorem tokens_of_next_none {cursor after : Cursor} (ended : cursor.next = (.ok none, after)) :
    cursor.tokens = .ok [] := by
  rw [tokens]
  split <;> simp_all

theorem tokens_of_next_some {cursor after : Cursor} {token : Token}
    (read : cursor.next = (.ok (some token), after)) :
    cursor.tokens = after.tokens.map (token :: ·) := by
  rw [tokens]
  split <;> simp_all
  split <;> simp_all [Except.map]

/-- Separated tokens are read back from every text that spells them. -/
theorem tokens_of_spelled {spelling : List Token} {text : List Char}
    (spelled : Token.Spelled spelling text) (separated : Token.Separated spelling) (offset : Nat) :
    (Cursor.mk text offset).tokens = .ok spelling := by
  induction spelled generalizing offset with
  | @finished gap blank =>
      have here := skipGaps_append [] blank (by simp) offset
      rw [List.append_nil] at here
      have ended : (Cursor.mk gap offset).next = (.ok none, ⟨[], offset + gap.length⟩) := by
        rw [next, here]
      exact tokens_of_next_none ended
  | @token gap token others rest blank written spelled recurse =>
      have split : ∀ value raw, token = .number value raw →
          Token.splitNumeral false (raw.toList ++ rest) = (raw.toList, rest) := by
        rintro value raw rfl
        refine Token.splitNumeral_append_rest written.1 (spelled.stops ?_)
        rintro follower first value raw rfl
        exact absurd (separated.rel_head? first rfl) (by simp [Token.beginsOperand])
      obtain ⟨behind, read⟩ := next_token blank written split offset
      rw [tokens_of_next_some read, recurse separated.tail]
      rfl

end Cursor

/-- What is split off as a numeral is a whole numeral. -/
theorem Token.splitNumeral_fst (pointSeen : Bool) (text : List Char) :
    Token.splitNumeral pointSeen (Token.splitNumeral pointSeen text).1 =
      ((Token.splitNumeral pointSeen text).1, []) := by
  induction text generalizing pointSeen with
  | nil => rfl
  | cons char others recurse =>
      simp only [splitNumeral]
      split
      · rename_i digit
        simp [splitNumeral, digit, recurse]
      · rename_i noDigit
        split
        · rename_i point
          simp only [splitNumeral, if_neg noDigit, if_pos point, recurse]
        · rfl

namespace Cursor

/-- Skipping gaps passes over blanks only. -/
theorem skipGaps_spec (cursor : Cursor) :
    ∃ gap, (∀ char ∈ gap, Token.isGap char = true) ∧ cursor.rest = gap ++ cursor.skipGaps.rest := by
  refine ⟨cursor.rest.takeWhile Token.isGap, ?_, ?_⟩
  · intro char member
    exact List.mem_takeWhile_imp member
  · exact (List.takeWhile_append_dropWhile (p := Token.isGap)).symm

/-- Skipping gaps stops in front of a character that is none. -/
theorem skipGaps_stops (cursor : Cursor) :
    ∀ char ∈ cursor.skipGaps.rest.head?, Token.isGap char = false := by
  intro char first
  have noGap := List.head?_dropWhile_not Token.isGap cursor.rest
  rw [skipGaps] at first
  rwa [first] at noGap

/-- A token that is handed out stands in the text behind a gap, and nothing else is passed over. A
number is handed out with all that it goes on with. -/
theorem text_of_next {cursor after : Cursor} {token : Token}
    (read : cursor.next = (.ok (some token), after)) :
    ∃ gap, (∀ char ∈ gap, Token.isGap char = true) ∧ token.IsWritten ∧
      cursor.rest = gap ++ token.text.toList ++ after.rest ∧
      ∀ value raw, token = .number value raw →
        Token.splitNumeral false (raw.toList ++ after.rest) = (raw.toList, after.rest) := by
  obtain ⟨gap, blank, whole⟩ := cursor.skipGaps_spec
  refine ⟨gap, blank, ?_⟩
  rw [whole, List.append_assoc, List.append_cancel_left_eq]
  unfold next at read
  revert read
  generalize cursor.skipGaps = here
  intro read
  cases text : here.rest with
  | nil => simp [text] at read
  | cons char rest =>
      simp only [text] at read
      split at read
      · rename_i opening
        cases read
        exact ⟨trivial, by rw [opening]; rfl, nofun⟩
      split at read
      · rename_i closing
        cases read
        exact ⟨trivial, by rw [closing]; rfl, nofun⟩
      split at read
      · have parts := Token.splitNumeral_append false here.rest
        simp only [numeral, Prod.mk.injEq] at read
        obtain ⟨value, rfl⟩ := read
        split at value
        · rename_i number readAs
          cases value
          refine ⟨⟨?_, ?_⟩, ?_, ?_⟩
          · simpa using Token.splitNumeral_fst false here.rest
          · simpa using readAs
          · rw [← text, ← parts]
            simp [Token.text, parts]
          · rintro _ _ ⟨⟩
            simp [parts]
        · cases value
      split at read
      · rename_i op named
        cases read
        obtain ⟨operation, isSign, rfl⟩ := Option.map_eq_some_iff.mp named
        rw [Arith.ofChar?_eq_some_iff] at isSign
        refine ⟨by simp [Token.IsWritten], ?_, nofun⟩
        rw [isSign]
        simp [Token.text, Operator.symbol]
      · cases read

/-- A text at whose end no token is left consists of blanks. -/
theorem blank_of_next_none {cursor after : Cursor} (ended : cursor.next = (.ok none, after)) :
    ∀ char ∈ cursor.rest, Token.isGap char = true := by
  obtain ⟨gap, blank, whole⟩ := cursor.skipGaps_spec
  unfold next at ended
  cases text : cursor.skipGaps.rest with
  | nil =>
      rw [whole, text, List.append_nil]
      exact blank
  | cons char rest =>
      simp only [text, numeral] at ended
      repeat' split at ended
      all_goals simp_all

/-- A text spells the tokens that are read from it. -/
theorem spelled_of_tokens {cursor : Cursor} {spelling : List Token}
    (read : cursor.tokens = .ok spelling) : Token.Spelled spelling cursor.rest := by
  induction spelling generalizing cursor with
  | nil =>
      rw [tokens] at read
      split at read
      · cases read
      · rename_i after ended
        exact .finished (blank_of_next_none ended)
      · split at read <;> cases read
  | cons first others recurse =>
      rw [tokens] at read
      split at read
      · cases read
      · cases read
      · rename_i token after handed
        split at read
        · cases read
        · rename_i behind rest
          cases read
          obtain ⟨gap, blank, written, whole, _⟩ := text_of_next handed
          rw [whole]
          exact .token blank written (recurse rest)

end Cursor

/-- A text spells the tokens that are read from it. -/
theorem Token.spelled_of_read {tokens : List Token} {text : String}
    (read : Token.read text = .ok tokens) : Token.Spelled tokens text.toList :=
  Cursor.spelled_of_tokens read

/-- Every token of a spelled text can stand in a text. -/
theorem Token.Spelled.isWritten {tokens : List Token} {text : List Char}
    (spelled : Token.Spelled tokens text) : ∀ token ∈ tokens, token.IsWritten := by
  induction spelled with
  | finished => simp
  | token _ written _ recurse => simpa using ⟨written, recurse⟩

/-- Separated tokens are read back from every text that spells them. -/
theorem Token.read_of_spelled {tokens : List Token} {text : String}
    (spelled : Token.Spelled tokens text.toList) (separated : Token.Separated tokens) :
    Token.read text = .ok tokens :=
  Cursor.tokens_of_spelled spelled separated 0

end PanelCalc
