import PanelCalc.Proofs.Token.Runs

/-!
# Lexemes

Every text begins with tokens, up to its end or to where no token can be read:
`Cursor.exists_begins`. What stands behind them is kept in view, as `Token.Begins` has it, because a
number is read up to where it cannot go on. So a text has the tokens that it begins with up to its
end, and otherwise the fault that is met behind them. `Token.read_lossless` says what this leaves of
the text.
-/

namespace PanelCalc

open Decimal (IsRun LongestRun longestRun_append_iff splitNumeral_eq_iff)

namespace Token

/-- `Begins rest tokens front` says that a text begins with tokens. With gaps around them they take
up its front, and none of the numbers among them could be longer in front of the rest. -/
inductive Begins (rest : List Char) : List Token → List Char → Prop where
  | finished {gap : List Char} (blank : ∀ char ∈ gap, isGap char = true) : Begins rest [] gap
  | token {gap : List Char} {token : Token} {others : List Token} {front : List Char}
      (blank : ∀ char ∈ gap, isGap char = true) (written : token.IsWritten)
      (longest : ∀ value raw, token = .number value raw →
        LongestRun raw.toList (raw.toList ++ (front ++ rest)))
      (begins : Begins rest others front) :
      Begins rest (token :: others) (gap ++ token.text.toList ++ front)

/-- `Unreadable position text fault` says that no token can be read where a text begins, and by
which fault this is told of a position. -/
inductive Unreadable (position : Nat) : List Char → Fault → Prop where
  /-- A character belongs to no token and is no gap. -/
  | character {char : Char} {behind : List Char} (illegible : isLegible char = false) :
      Unreadable position (char :: behind) (.invalidCharacter char position)
  /-- A run of digits reads as no number. -/
  | number {run behind : List Char} (longest : LongestRun run (run ++ behind)) (nonempty : run ≠ [])
      (unread : Decimal.read? run = none) :
      Unreadable position (run ++ behind) (.invalidNumber (String.ofList run) position)

end Token

namespace Cursor

open Token (Begins Unreadable)

/-- A token is handed out wherever it stands behind a gap, and a number if it does not go on. -/
theorem next_written {gap rest : List Char} {token : Token}
    (blank : ∀ char ∈ gap, Token.isGap char = true) (written : token.IsWritten)
    (longest : ∀ value raw, token = .number value raw →
      LongestRun raw.toList (raw.toList ++ rest)) (offset : Nat) :
    (Cursor.mk (gap ++ token.text.toList ++ rest) offset).next =
      (.ok (some token), ⟨rest, offset + Text.size (gap ++ token.text.toList)⟩) := by
  obtain ⟨behind, read⟩ := next_token blank written
    (fun value raw isNumber => splitNumeral_eq_iff.mpr (longest value raw isNumber)) offset
  have same := (Cursor.mk (gap ++ token.text.toList ++ rest) offset).ending_next
  rw [read] at same
  simp only [ending, Text.size_append] at same
  rw [read, Text.size_append]
  simp only [Prod.mk.injEq, mk.injEq, true_and]
  omega

/-- Behind the tokens that a text begins with, reading goes on with the rest. -/
theorem tokens_of_begins {rest front : List Char} {tokens : List Token}
    (begins : Begins rest tokens front) (offset : Nat) :
    (Cursor.mk (front ++ rest) offset).tokens =
      (Cursor.mk rest (offset + Text.size front)).tokens.map (tokens ++ ·) := by
  induction begins generalizing offset with
  | @finished gap blank =>
      rw [tokens_gap blank, Token.size_gap blank]
      cases (Cursor.mk rest (offset + gap.length)).tokens <;> rfl
  | @token gap token others front blank written longest _ recurse =>
      have read := next_written blank written longest offset
      rw [List.append_assoc, tokens_of_next_some read, recurse, Text.size_append _ front,
        ← Nat.add_assoc]
      generalize offset + Text.size (gap ++ token.text.toList) + Text.size front = behind
      cases (Cursor.mk rest behind).tokens <;> rfl

/-- Where no token can be read, the fault is told. -/
theorem next_of_unreadable {text : List Char} {offset : Nat} {fault : Fault}
    (unreadable : Unreadable offset text fault) :
    (Cursor.mk text offset).next.1 = .error fault := by
  cases unreadable with
  | @character char behind illegible =>
      simp only [Token.isLegible, Bool.or_eq_false_iff, decide_eq_false_iff_not] at illegible
      obtain ⟨⟨⟨⟨noGap, noNumeral⟩, noSign⟩, noOpening⟩, noClosing⟩ := illegible
      have here : (Cursor.mk (char :: behind) offset).skipGaps = ⟨char :: behind, offset⟩ := by
        simp [skipGaps, noGap]
      have noOperator : Operator.ofChar? char = none := by
        simpa [Operator.ofChar?] using noSign
      simp [next, here, noOpening, noClosing, noNumeral, noOperator]
  | @number run behind longest nonempty unread =>
      have split := splitNumeral_eq_iff.mpr longest
      obtain ⟨char, others, rfl⟩ := List.exists_cons_of_ne_nil nonempty
      have starts : Token.startsNumeral char = true := by
        simpa [Token.startsNumeral] using longest.isRun.figures char (by simp)
      have read := @next_of_startsNumeral [] char (by simp) starts (others ++ behind) offset
      rw [List.nil_append, List.length_nil, Nat.add_zero, ← List.cons_append] at read
      simp only [List.cons_append] at read split ⊢
      simp only [read, numeral, split, unread]

/-- A fault is told where no token can be read. -/
theorem unreadable_of_next {cursor after : Cursor} {fault : Fault}
    (failed : cursor.next = (.error fault, after)) :
    Unreadable cursor.skipGaps.offset cursor.skipGaps.rest fault := by
  have stops := cursor.skipGaps_stops
  unfold next at failed
  revert failed stops
  generalize cursor.skipGaps = here
  obtain ⟨rest, offset⟩ := here
  intro failed stops
  cases rest with
  | nil => simp at failed
  | cons char behind =>
      simp only at failed
      split at failed
      · cases failed
      split at failed
      · cases failed
      rename_i noOpening noClosing
      split at failed
      · rename_i starts
        simp only [numeral, Prod.mk.injEq] at failed
        obtain ⟨unread, _⟩ := failed
        split at unread
        · cases unread
        · rename_i none
          cases unread
          have parts := Token.splitNumeral_append false (char :: behind)
          have longest := Decimal.longestRun_splitNumeral (char :: behind)
          have nonempty := Token.splitNumeral_ne_nil behind starts
          generalize Token.splitNumeral false (char :: behind) = split at *
          rw [← parts] at longest ⊢
          exact .number longest nonempty none
      · rename_i noNumeral
        split at failed
        · cases failed
        · rename_i noOperator
          cases failed
          have noSign : Arith.ofChar? char = none := by
            simpa [Operator.ofChar?] using noOperator
          refine .character ?_
          simp [Token.isLegible, stops char rfl, noNumeral, noSign, noOpening, noClosing]

/-- Every text begins with tokens, up to its end or to where no token can be read. -/
theorem exists_begins (cursor : Cursor) :
    ∃ tokens front rest, cursor.rest = front ++ rest ∧ Begins rest tokens front ∧
      (rest = [] ∨ ∃ fault, Unreadable (cursor.offset + Text.size front) rest fault) := by
  induction cursor using Cursor.tokens.induct with
  | case1 cursor fault after stuck =>
      have blank : ∀ char ∈ cursor.rest.takeWhile Token.isGap, Token.isGap char = true :=
        fun char member => List.mem_takeWhile_imp member
      refine ⟨[], cursor.rest.takeWhile Token.isGap, cursor.skipGaps.rest, ?_, .finished blank,
        .inr ⟨fault, ?_⟩⟩
      · exact List.takeWhile_append_dropWhile.symm
      · rw [Token.size_gap blank]
        exact unreadable_of_next stuck
  | case2 cursor after ended =>
      exact ⟨[], cursor.rest, [], by simp, .finished (blank_of_next_none ended), .inl rfl⟩
  | case3 cursor token after read _ _ recurse | case4 cursor token after read _ _ recurse =>
      obtain ⟨tokens, front, rest, behind, begins, stops⟩ := recurse
      obtain ⟨gap, blank, written, whole, longest⟩ := text_of_next read
      have same := cursor.ending_next
      rw [read] at same
      refine ⟨token :: tokens, gap ++ token.text.toList ++ front, rest, ?_, ?_, ?_⟩
      · simp only [whole, behind, List.append_assoc]
      · refine .token blank written (fun value raw isNumber => ?_) begins
        rw [← behind]
        exact splitNumeral_eq_iff.mp (longest value raw isNumber)
      · have place : after.offset + Text.size front =
            cursor.offset + Text.size (gap ++ token.text.toList ++ front) := by
          simp only [ending, whole, behind, Text.size_append] at same ⊢
          omega
        rwa [← place]

end Cursor

namespace Token

/-- Tokens that take up the front of a text take up that front by itself. -/
theorem Begins.alone {rest front : List Char} {tokens : List Token}
    (begins : Begins rest tokens front) : Begins [] tokens front := by
  induction begins with
  | finished blank => exact .finished blank
  | @token gap token others front blank written longest _ recurse =>
      refine .token blank written (fun value raw isNumber => ?_) recurse
      rw [List.append_nil]
      exact (longest value raw isNumber).shorten ⟨front, rfl⟩ ⟨rest, by simp⟩

/-- The tokens that take up a text are read from it. -/
theorem read_of_begins {text : String} {tokens : List Token}
    (begins : Begins [] tokens text.toList) : read text = .ok tokens := by
  have run := Cursor.tokens_of_begins begins 0
  have ended : (Cursor.mk [] (0 + Text.size text.toList)).tokens = .ok [] :=
    Cursor.tokens_of_next_none rfl
  rw [ended, List.append_nil] at run
  rw [read, Cursor.start, run]
  exact congrArg Except.ok (List.append_nil tokens)

/-- Where no token can be read behind the first ones, a fault is found. -/
theorem read_of_unreadable {text : String} {tokens : List Token} {front rest : List Char}
    {fault : Fault} (whole : text.toList = front ++ rest) (begins : Begins rest tokens front)
    (unreadable : Unreadable (Text.size front) rest fault) : read text = .error fault := by
  have stuck := Cursor.next_of_unreadable unreadable
  have run := Cursor.tokens_of_begins begins 0
  rw [Nat.zero_add, Cursor.tokens_of_next_error (Prod.ext stuck rfl)] at run
  rw [read, Cursor.start, whole, run]
  rfl

/-- A text is read as the tokens that take it up. -/
theorem read_eq_ok_iff {text : String} {tokens : List Token} :
    read text = .ok tokens ↔ Begins [] tokens text.toList := by
  refine ⟨fun given => ?_, read_of_begins⟩
  obtain ⟨taken, front, rest, whole, begins, rfl | ⟨fault, unreadable⟩⟩ :=
    (Cursor.start text).exists_begins
  · have all : text.toList = front := whole.trans (List.append_nil front)
    rw [← all] at begins
    have readAs := read_of_begins begins
    rw [given] at readAs
    cases readAs
    exact begins
  · rw [Cursor.start, Nat.zero_add] at unreadable
    have failed := read_of_unreadable whole begins unreadable
    rw [given] at failed
    cases failed

/-- A fault is found in a text where behind its first tokens no further one can be read. -/
theorem read_eq_error_iff {text : String} {fault : Fault} :
    read text = .error fault ↔
      ∃ tokens front rest, text.toList = front ++ rest ∧ Begins rest tokens front ∧
        Unreadable (Text.size front) rest fault := by
  constructor
  · intro given
    obtain ⟨taken, front, rest, whole, begins, rfl | ⟨own, unreadable⟩⟩ :=
      (Cursor.start text).exists_begins
    · have all : text.toList = front := whole.trans (List.append_nil front)
      have readAs := read_of_begins (all ▸ begins)
      rw [given] at readAs
      cases readAs
    · rw [Cursor.start, Nat.zero_add] at unreadable
      have failed := read_of_unreadable whole begins unreadable
      rw [given] at failed
      cases failed
      exact ⟨taken, front, rest, whole, begins, unreadable⟩
  · rintro ⟨tokens, front, rest, whole, begins, unreadable⟩
    exact read_of_unreadable whole begins unreadable

/-- No gap stands in the text of a token. -/
theorem IsWritten.isGap {token : Token} (written : token.IsWritten) :
    ∀ char ∈ token.text.toList, Token.isGap char = false := by
  by_cases isNumber : ∃ value raw, token = .number value raw
  · obtain ⟨value, raw, rfl⟩ := isNumber
    intro char member
    exact isGap_of_startsNumeral (startsNumeral_of_mem written.1 char member)
  · obtain ⟨char, text, _, noGap⟩ := startsNumeral_of_text (by simpa using isNumber) written
    simp [text, noGap]

/-- A text begins with the texts of its tokens, apart from gaps. -/
theorem Begins.solid {rest front : List Char} {tokens : List Token}
    (begins : Begins rest tokens front) :
    (tokens.flatMap fun token => token.text.toList) = front.filter (!isGap ·) := by
  induction begins with
  | finished blank => simpa [List.filter_eq_nil_iff] using blank
  | @token gap token others front blank written _ _ recurse =>
      have none : gap.filter (!isGap ·) = [] := by simpa [List.filter_eq_nil_iff] using blank
      have all : token.text.toList.filter (!isGap ·) = token.text.toList := by
        simpa [List.filter_eq_self] using written.isGap
      rw [List.flatMap_cons, recurse, List.filter_append, List.filter_append, none, all,
        List.nil_append]

/-- Tokens in front of another one are read up to it, and those behind it from there on. -/
theorem Begins.around {rest front : List Char} {earlier later : List Token} {token : Token}
    (begins : Begins rest (earlier ++ token :: later) front) :
    ∃ left right, front = left ++ token.text.toList ++ right ∧
      Begins (token.text.toList ++ (right ++ rest)) earlier left ∧ Begins rest later right ∧
      token.IsWritten ∧
      ∀ value raw, token = .number value raw →
        LongestRun raw.toList (raw.toList ++ (right ++ rest)) := by
  induction earlier generalizing front with
  | nil =>
      cases begins with
      | @token gap _ _ right blank written longest begins =>
          exact ⟨gap, right, rfl, .finished blank, begins, written, longest⟩
  | cons first others recurse =>
      cases begins with
      | @token gap _ _ behind blank written longest begins =>
          obtain ⟨left, right, rfl, before, onward, facts⟩ := recurse begins
          refine ⟨gap ++ first.text.toList ++ left, right, by simp, ?_, onward, facts⟩
          refine .token blank written (fun value raw isNumber => ?_) before
          simpa using longest value raw isNumber

/-- The text of a token is read as that token. -/
theorem IsWritten.read_text {token : Token} (written : token.IsWritten) :
    read token.text = .ok [token] := by
  have spelled := @Spelled.token [] token [] [] (by simp) written (.finished (by simp))
  rw [List.nil_append, List.append_nil] at spelled
  exact read_of_spelled spelled (.singleton token)

/-- A listing of tokens that can stand in a text is read as those tokens. -/
theorem read_listing {tokens : List Token} (written : ∀ token ∈ tokens, token.IsWritten) :
    read (listing tokens) = .ok tokens := by
  induction tokens with
  | nil => exact read_of_begins (.finished (by simp [listing]))
  | cons token others recurse =>
      rw [List.forall_mem_cons] at written
      have first := written.1.read_text
      cases others with
      | nil => simpa [listing] using first
      | cons next later =>
          have apart : listing (token :: next :: later) =
              token.text ++ " " ++ listing (next :: later) := String.intercalate_cons_cons
          rw [apart, read_apart (by simp [isGap]) (by decide), first, recurse written.2]
          rfl

/-- A number that can stand in a text has a digit. -/
theorem IsWritten.exists_digit {value : Float} {raw : String}
    (written : (number value raw).IsWritten) :
    ∃ digit ∈ raw.toList, Decimal.isDigit digit = true := by
  have readAs := written.2
  unfold Decimal.read? at readAs
  split at readAs
  · rename_i accepted
    rw [Bool.and_eq_true] at accepted
    exact List.any_eq_true.mp accepted.1
  · cases readAs

/-- Reading tokens loses nothing but the gaps of a text, and is stable. The texts of the tokens make
up the text without its blanks. Every number has a digit and at most one point, and is the longest
run of digits with at most one point that stands where the tokens before it have been read. No
negation is read. The listing of the tokens is read as the same tokens. -/
theorem read_lossless {text : String} {tokens : List Token} (read : Token.read text = .ok tokens) :
    (tokens.flatMap fun token => token.text.toList) =
        text.toList.filter (· ∉ [' ', '\t', '\r', '\n']) ∧
      (∀ earlier value raw later, tokens = earlier ++ .number value raw :: later →
        (∃ digit ∈ raw.toList, Decimal.isDigit digit = true) ∧ raw.toList.count '.' ≤ 1 ∧
          ∃ front behind, text = front ++ raw ++ behind ∧
            Token.read front = .ok earlier ∧ Token.read behind = .ok later ∧
            LongestRun raw.toList (raw ++ behind).toList) ∧
      .operator .negate ∉ tokens ∧
      Token.read (listing tokens) = .ok tokens := by
  have begins := read_eq_ok_iff.mp read
  have written := (spelled_of_read read).isWritten
  refine ⟨?_, ?_, fun member => written _ member rfl, read_listing written⟩
  · rw [begins.solid]
    refine List.filter_congr fun char _ => ?_
    simp only [← isGap_iff, Bool.not_eq_true, Bool.decide_eq_false]
  · rintro earlier value raw later rfl
    obtain ⟨left, right, whole, before, onward, isWritten, longest⟩ := begins.around
    have longestHere := longest value raw rfl
    rw [List.append_nil] at longestHere
    refine ⟨isWritten.exists_digit, longestHere.isRun.points, String.ofList left,
      String.ofList right, ?_, ?_, ?_, ?_⟩
    · rw [← String.toList_inj, whole]
      simp [Token.text]
    · exact read_of_begins (by simpa using before.alone)
    · exact read_of_begins (by simpa using onward)
    · simpa using longestHere

/-- A second point begins a number of its own, as it does behind a blank. -/
theorem read_lossless_of_second_point :
    read " 1.2.3" = .ok [.number 1.2 "1.2", .number 0.3 ".3"] ∧
      read "1.2 .3" = .ok [.number 1.2 "1.2", .number 0.3 ".3"] ∧
      ∃ front behind, " 1.2.3" = front ++ ".3" ++ behind ∧
        read front = .ok [.number 1.2 "1.2"] ∧ read behind = .ok [] ∧
        LongestRun ".3".toList (".3" ++ behind).toList := by
  have readAs : read " 1.2.3" = .ok [.number 1.2 "1.2", .number 0.3 ".3"] := by decide +kernel
  obtain ⟨_, places, _, listed⟩ := read_lossless readAs
  exact ⟨readAs, listed, (places [.number 1.2 "1.2"] 0.3 ".3" [] rfl).2.2⟩

end Token
end PanelCalc
