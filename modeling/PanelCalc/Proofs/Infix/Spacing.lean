import PanelCalc.Formula
import PanelCalc.Proofs.Decimal.Figures
import PanelCalc.Proofs.Infix.Reading
import PanelCalc.Proofs.Outcome

/-!
# Gaps around texts

A text is read up to its end whatever follows it, unless that could continue a numeral:
`Cursor.tokens_followedBy`. So a gap keeps apart what is read in front of it and what is read behind
it: `Cursor.tokens_followedBy_apart`. Where a text stands only moves the positions of its faults:
`Cursor.tokens_moved`. So a text with gaps around it is read like the text itself:
`Token.read_padded`. No other white space is ever read: `Token.Spelled.isLegible`.
-/

namespace PanelCalc

/-- How many bytes a text takes in its UTF-8 form. -/
def Text.size (text : List Char) : Nat := (text.map Char.utf8Size).sum

theorem Text.size_append (front behind : List Char) :
    size (front ++ behind) = size front + size behind := by
  simp [size]

/-- A text of characters of one byte each takes as many bytes as it has characters. -/
theorem Text.size_eq_length {text : List Char} (narrow : ∀ char ∈ text, char.utf8Size = 1) :
    size text = text.length := by
  induction text with
  | nil => rfl
  | cons char others recurse =>
      rw [List.forall_mem_cons] at narrow
      have rest := recurse narrow.2
      simp only [size, List.map_cons, List.sum_cons, List.length_cons] at rest ⊢
      omega

/-- The size of a text is that of its characters. -/
theorem Text.size_toList (text : String) : size text.toList = text.utf8ByteSize := by
  rw [← String.ofList_toList (s := text), String.toList_ofList]
  induction text.toList with
  | nil => rfl
  | cons char others recurse =>
      rw [String.ofList_cons, String.utf8ByteSize_append, String.utf8ByteSize_singleton, ← recurse,
        size, size, List.map_cons, List.sum_cons]

/-- A fault found at a later place of a text. -/
def Fault.moved (bytes : Nat) : Fault → Fault
  | invalidCharacter char position => invalidCharacter char (position + bytes)
  | invalidNumber raw position => invalidNumber raw (position + bytes)
  | fault => fault

namespace Token

theorem isGap_iff {char : Char} : isGap char = true ↔ char ∈ [' ', '\t', '\r', '\n'] := by
  simp [isGap, or_assoc]

theorem utf8Size_of_isGap {char : Char} (gap : isGap char = true) : char.utf8Size = 1 := by
  simp only [isGap, Bool.or_eq_true, decide_eq_true_eq, or_assoc] at gap
  rcases gap with rfl | rfl | rfl | rfl <;> decide

/-- A gap takes as many bytes as it has characters. -/
theorem size_gap {gap : List Char} (blank : ∀ char ∈ gap, isGap char = true) :
    Text.size gap = gap.length :=
  Text.size_eq_length fun char member => utf8Size_of_isGap (blank char member)

/-- The characters of which numerals consist. -/
theorem startsNumeral_of_mem {pointSeen : Bool} {raw : List Char}
    (whole : splitNumeral pointSeen raw = (raw, [])) :
    ∀ char ∈ raw, startsNumeral char = true := by
  induction raw generalizing pointSeen with
  | nil => simp
  | cons char others recurse =>
      simp only [splitNumeral] at whole
      rw [List.forall_mem_cons]
      split at whole
      · rename_i digit
        have inner : splitNumeral pointSeen others = (others, []) := by
          simpa [Prod.ext_iff] using whole
        exact ⟨by simp [startsNumeral, digit], recurse inner⟩
      · split at whole
        · rename_i point
          have inner : splitNumeral true others = (others, []) := by
            simpa [Prod.ext_iff] using whole
          simp only [Bool.and_eq_true, decide_eq_true_eq] at point
          exact ⟨by simp [startsNumeral, point.1], recurse inner⟩
        · simp at whole

theorem utf8Size_of_startsNumeral {char : Char} (starts : startsNumeral char = true) :
    char.utf8Size = 1 := by
  simp only [startsNumeral, Decimal.isDigit, Bool.or_eq_true, Bool.and_eq_true,
    decide_eq_true_eq] at starts
  rw [Char.utf8Size_eq_one_iff]
  rcases starts with ⟨_, atMost⟩ | rfl
  · have nine : '9'.val ≤ 127 := by decide
    exact UInt32.le_trans atMost nine
  · decide

end Token

namespace Cursor

/-- The cursor at a later place of a text. -/
def moved (cursor : Cursor) (bytes : Nat) : Cursor := ⟨cursor.rest, cursor.offset + bytes⟩

/-- The cursor in a text that goes on behind its end. -/
def followedBy (cursor : Cursor) (behind : List Char) : Cursor :=
  ⟨cursor.rest ++ behind, cursor.offset⟩

/-- The byte offset of the end of a text. -/
def ending (cursor : Cursor) : Nat := cursor.offset + Text.size cursor.rest

/-- What is read depends on the next token and on what is read behind it. -/
theorem tokens_eq_of_next_eq {left right : Cursor} (same : left.next = right.next) :
    left.tokens = right.tokens := by
  rcases read : right.next with ⟨fault | _ | token, after⟩
  · rw [tokens_of_next_error read, tokens_of_next_error (same.trans read)]
  · rw [tokens_of_next_none read, tokens_of_next_none (same.trans read)]
  · rw [tokens_of_next_some read, tokens_of_next_some (same.trans read)]

/-! ## Texts at later places -/

theorem skipGaps_moved (cursor : Cursor) (bytes : Nat) :
    (cursor.moved bytes).skipGaps = cursor.skipGaps.moved bytes := by
  simp only [skipGaps, moved, Cursor.mk.injEq, true_and]
  omega

theorem numeral_moved (cursor : Cursor) (bytes : Nat) :
    (cursor.moved bytes).numeral =
      (cursor.numeral.1.mapError (Fault.moved bytes), cursor.numeral.2.moved bytes) := by
  simp only [numeral, moved]
  split
  · simp [Except.mapError]
    omega
  · simp [Except.mapError, Fault.moved]
    omega

theorem next_moved (cursor : Cursor) (bytes : Nat) :
    (cursor.moved bytes).next =
      (cursor.next.1.mapError (Fault.moved bytes), cursor.next.2.moved bytes) := by
  unfold next
  rw [skipGaps_moved]
  generalize cursor.skipGaps = here
  obtain ⟨rest, offset⟩ := here
  cases rest with
  | nil => rfl
  | cons char others =>
      have behind : Cursor.mk others (offset + bytes + char.utf8Size) =
          moved ⟨others, offset + char.utf8Size⟩ bytes := by
        simp only [moved, Cursor.mk.injEq, true_and]
        omega
      simp only [moved]
      rw [behind]
      split
      · rfl
      split
      · rfl
      split
      · exact numeral_moved ⟨char :: others, offset⟩ bytes
      split
      · rfl
      · rfl

/-- Where a text stands only moves the positions of its faults. -/
theorem tokens_moved (cursor : Cursor) (bytes : Nat) :
    (cursor.moved bytes).tokens = cursor.tokens.mapError (Fault.moved bytes) := by
  induction cursor using Cursor.tokens.induct with
  | case1 cursor fault after stuck =>
      have there := cursor.next_moved bytes
      rw [stuck] at there
      rw [tokens_of_next_error stuck, tokens_of_next_error there]
      rfl
  | case2 cursor after ended =>
      have there := cursor.next_moved bytes
      rw [ended] at there
      rw [tokens_of_next_none ended, tokens_of_next_none there]
      rfl
  | case3 cursor token after read _ _ recurse | case4 cursor token after read _ _ recurse =>
      have there := cursor.next_moved bytes
      rw [read] at there
      rw [tokens_of_next_some read, tokens_of_next_some there, recurse]
      cases after.tokens <;> rfl

/-! ## Texts that go on -/

theorem skipGaps_followedBy {cursor : Cursor} {char : Char} {others : List Char}
    (here : cursor.skipGaps.rest = char :: others) (behind : List Char) :
    (cursor.followedBy behind).skipGaps = cursor.skipGaps.followedBy behind := by
  simp only [skipGaps] at here
  have short : (cursor.rest.takeWhile Token.isGap).length ≠ cursor.rest.length := by
    have whole := congrArg List.length
      (List.takeWhile_append_dropWhile (p := Token.isGap) (l := cursor.rest))
    rw [List.length_append, here, List.length_cons] at whole
    omega
  simp only [skipGaps, followedBy, List.dropWhile_append, List.takeWhile_append, here, if_neg short]
  rfl

theorem numeral_followedBy {behind : List Char}
    (stops : ∀ char ∈ behind.head?, Token.startsNumeral char = false) (cursor : Cursor) :
    (cursor.followedBy behind).numeral =
      (cursor.numeral.1, cursor.numeral.2.followedBy behind) := by
  simp only [numeral, followedBy, Token.splitNumeral_followed stops]

/-- A token is read alike when something follows the text that cannot continue a numeral. -/
theorem next_followedBy {behind : List Char}
    (stops : ∀ char ∈ behind.head?, Token.startsNumeral char = false) {cursor : Cursor}
    (handed : cursor.next.1 ≠ .ok none) :
    (cursor.followedBy behind).next = (cursor.next.1, cursor.next.2.followedBy behind) := by
  cases text : cursor.skipGaps.rest with
  | nil => simp [next, text] at handed
  | cons char others =>
      have there := skipGaps_followedBy text behind
      unfold next
      rw [there]
      revert text
      generalize cursor.skipGaps = here
      intro text
      have longer : (here.followedBy behind).rest = char :: (others ++ behind) := by
        rw [followedBy, text, List.cons_append]
      simp only [text, longer]
      split
      · rfl
      split
      · rfl
      split
      · exact numeral_followedBy stops here
      split
      · rfl
      · rfl

/-! ## Where texts end -/

theorem ending_skipGaps (cursor : Cursor) : cursor.skipGaps.ending = cursor.ending := by
  have whole := congrArg Text.size
    (List.takeWhile_append_dropWhile (p := Token.isGap) (l := cursor.rest))
  have blank : ∀ char ∈ cursor.rest.takeWhile Token.isGap, Token.isGap char = true :=
    fun char member => List.mem_takeWhile_imp member
  rw [Text.size_append, Token.size_gap blank] at whole
  simp only [ending, skipGaps]
  omega

theorem ending_numeral (cursor : Cursor) : cursor.numeral.2.ending = cursor.ending := by
  have whole := congrArg Text.size (Token.splitNumeral_append false cursor.rest)
  have narrow : ∀ char ∈ (Token.splitNumeral false cursor.rest).1, char.utf8Size = 1 :=
    fun char member => Token.utf8Size_of_startsNumeral
      (Token.startsNumeral_of_mem (Token.splitNumeral_fst false cursor.rest) char member)
  rw [Text.size_append, Text.size_eq_length narrow] at whole
  simp only [ending, numeral]
  omega

/-- Reading a token leaves the end of the text where it is. -/
theorem ending_next (cursor : Cursor) : cursor.next.2.ending = cursor.ending := by
  rw [← ending_skipGaps cursor]
  unfold next
  generalize cursor.skipGaps = here
  obtain ⟨rest, offset⟩ := here
  cases rest with
  | nil => rfl
  | cons char others =>
      have passed : ending ⟨others, offset + char.utf8Size⟩ = ending ⟨char :: others, offset⟩ := by
        simp only [ending, Text.size, List.map_cons, List.sum_cons]
        omega
      simp only
      split
      · exact passed
      split
      · exact passed
      split
      · exact ending_numeral ⟨char :: others, offset⟩
      split
      · exact passed
      · rfl

/-! ## Gaps -/

/-- A gap in front of a text is passed over. -/
theorem tokens_gap {gap : List Char} (blank : ∀ char ∈ gap, Token.isGap char = true)
    (behind : List Char) (offset : Nat) :
    (Cursor.mk (gap ++ behind) offset).tokens =
      (Cursor.mk behind (offset + gap.length)).tokens := by
  refine tokens_eq_of_next_eq ?_
  have here : (Cursor.mk (gap ++ behind) offset).skipGaps =
      (Cursor.mk behind (offset + gap.length)).skipGaps := by
    simp [skipGaps, List.dropWhile_append_of_pos blank, List.takeWhile_append_of_pos blank,
      Nat.add_assoc]
  rw [next, next, here]

/-- A text is read first, and then what follows it, unless that could continue a numeral. -/
theorem tokens_followedBy {behind : List Char}
    (stops : ∀ char ∈ behind.head?, Token.startsNumeral char = false) (cursor : Cursor) :
    (cursor.followedBy behind).tokens =
      cursor.tokens >>= fun before =>
        (Cursor.mk behind cursor.ending).tokens.map (before ++ ·) := by
  induction cursor using Cursor.tokens.induct with
  | case1 cursor fault after stuck =>
      have there := cursor.next_followedBy stops (by simp [stuck])
      rw [stuck] at there
      rw [tokens_of_next_error stuck, tokens_of_next_error there]
      rfl
  | case2 cursor after ended =>
      have spaces := blank_of_next_none ended
      rw [tokens_of_next_none ended, followedBy, tokens_gap spaces, ending, Token.size_gap spaces]
      cases (Cursor.mk behind (cursor.offset + cursor.rest.length)).tokens <;> rfl
  | case3 cursor token after read _ _ recurse | case4 cursor token after read _ _ recurse =>
      have there := cursor.next_followedBy stops (by simp [read])
      have same := cursor.ending_next
      rw [read] at there same
      rw [tokens_of_next_some read, tokens_of_next_some there, recurse, ← same]
      cases after.tokens with
      | error fault => rfl
      | ok before => cases (Cursor.mk behind after.ending).tokens <;> rfl

/-- What stands in front of a gap is read first, and then what stands behind it. -/
theorem tokens_followedBy_apart {gap : List Char} (blank : ∀ char ∈ gap, Token.isGap char = true)
    (nonempty : gap ≠ []) (behind : List Char) (cursor : Cursor) :
    (cursor.followedBy (gap ++ behind)).tokens =
      cursor.tokens >>= fun before =>
        (Cursor.mk behind (cursor.ending + gap.length)).tokens.map (before ++ ·) := by
  have stops : ∀ char ∈ (gap ++ behind).head?, Token.startsNumeral char = false := by
    obtain ⟨space, spaces, rfl⟩ := List.exists_cons_of_ne_nil nonempty
    simpa using Token.startsNumeral_of_isGap (blank space (by simp))
  simp only [tokens_followedBy stops, tokens_gap blank]

/-- A gap behind a text changes nothing. -/
theorem tokens_followedBy_gap {gap : List Char} (blank : ∀ char ∈ gap, Token.isGap char = true)
    (cursor : Cursor) : (cursor.followedBy gap).tokens = cursor.tokens := by
  by_cases nonempty : gap = []
  · rw [nonempty, followedBy, List.append_nil]
  · have apart := tokens_followedBy_apart blank nonempty [] cursor
    have ended : (Cursor.mk [] (cursor.ending + gap.length)).tokens = .ok [] :=
      tokens_of_next_none rfl
    rw [List.append_nil, ended] at apart
    rw [apart]
    cases cursor.tokens with
    | error fault => rfl
    | ok before => exact congrArg Except.ok (List.append_nil before)

end Cursor

section

variable {front back : List Char} (blankFront : ∀ char ∈ front, Token.isGap char = true)
  (blankBack : ∀ char ∈ back, Token.isGap char = true)

include blankFront blankBack

/-- Gaps around a text only move the positions of its faults. -/
theorem Token.read_padded (text : String) :
    Token.read (String.ofList (front ++ text.toList ++ back)) =
      (Token.read text).mapError (Fault.moved front.length) := by
  have there : Cursor.mk (text.toList ++ back) (0 + front.length) =
      ((Cursor.start text).followedBy back).moved front.length := rfl
  rw [read, Cursor.start, String.toList_ofList, List.append_assoc, Cursor.tokens_gap blankFront,
    there, Cursor.tokens_moved, Cursor.tokens_followedBy_gap blankBack, read]

/-- Gaps around a formula leave its value as it is. -/
theorem Formula.shown_padded_eq_ok_iff {text result : String} :
    shown (String.ofList (front ++ text.toList ++ back)) = .ok result ↔
      shown text = .ok result := by
  unfold shown value postfixed
  rw [Token.read_padded blankFront blankBack]
  cases Token.read text with
  | error fault => exact iff_of_false (fun stuck => by cases stuck) (fun stuck => by cases stuck)
  | ok tokens => rfl

end

/-! ## Texts one behind the other -/

namespace Token

/-- A text that could not continue a numeral is read behind another one like the text itself, and
later by what stands in front of it. -/
theorem read_append {back : String}
    (stops : ∀ char ∈ back.toList.head?, startsNumeral char = false) (front : String) :
    read (front ++ back) =
      read front >>= fun before =>
        ((read back).mapError (Fault.moved front.utf8ByteSize)).map (before ++ ·) := by
  have whole : Cursor.start (front ++ back) = (Cursor.start front).followedBy back.toList := by
    simp [Cursor.start, Cursor.followedBy]
  have later : Cursor.mk back.toList (Cursor.start front).ending =
      (Cursor.start back).moved front.utf8ByteSize := by
    simp [Cursor.start, Cursor.moved, Cursor.ending, Text.size_toList]
  rw [read, read, read, whole, Cursor.tokens_followedBy stops, later, Cursor.tokens_moved]

/-- The tokens of both texts are read. -/
theorem read_append_eq_ok_iff {back : String}
    (stops : ∀ char ∈ back.toList.head?, startsNumeral char = false) {front : String}
    {tokens : List Token} :
    read (front ++ back) = .ok tokens ↔
      ∃ before behind, read front = .ok before ∧ read back = .ok behind ∧
        before ++ behind = tokens := by
  rw [read_append stops, bind_eq_ok_iff]
  cases read back with
  | error fault => simp [Except.mapError, Except.map]
  | ok behind => simp [Except.mapError, Except.map]

end Token

/-! ## Texts on both sides of a gap -/

namespace Token

/-- Behind a gap a text is read like the text itself, and later by what stands in front of it. -/
theorem read_apart {gap : String} (blank : ∀ char ∈ gap.toList, isGap char = true)
    (nonempty : gap ≠ "") (front back : String) :
    read (front ++ gap ++ back) =
      read front >>= fun before =>
        ((read back).mapError (Fault.moved (front ++ gap).utf8ByteSize)).map (before ++ ·) := by
  have gapped : gap.toList ≠ [] := by simpa using nonempty
  have whole : Cursor.start (front ++ gap ++ back) =
      (Cursor.start front).followedBy (gap.toList ++ back.toList) := by
    simp [Cursor.start, Cursor.followedBy]
  have later : Cursor.mk back.toList ((Cursor.start front).ending + gap.toList.length) =
      (Cursor.start back).moved (front ++ gap).utf8ByteSize := by
    have bytes := Text.size_toList (front ++ gap)
    rw [String.toList_append, Text.size_append, size_gap blank] at bytes
    simp [Cursor.start, Cursor.moved, Cursor.ending, ← bytes]
  rw [read, read, read, whole, Cursor.tokens_followedBy_apart blank gapped,
    later, Cursor.tokens_moved]

/-- A gap between two texts keeps apart what is read in them. A fault in front of the gap is the
fault of the whole, and without one the tokens of both texts are read or else the fault behind the
gap is found, later by as many bytes as stand in front of it. -/
theorem read_joined {gap : String} (blank : ∀ char ∈ gap.toList, char ∈ [' ', '\t', '\r', '\n'])
    (nonempty : gap ≠ "") (front back : String) :
    (∀ fault, read front = .error fault → read (front ++ gap ++ back) = .error fault) ∧
    (∀ before behind, read front = .ok before → read back = .ok behind →
      read (front ++ gap ++ back) = .ok (before ++ behind)) ∧
    (∀ before fault, read front = .ok before → read back = .error fault →
      read (front ++ gap ++ back) = .error (fault.moved (front ++ gap).utf8ByteSize)) := by
  have gapped : ∀ char ∈ gap.toList, isGap char = true :=
    fun char member => isGap_iff.mpr (blank char member)
  have apart := read_apart gapped nonempty front back
  refine ⟨fun fault failed => ?_, fun before behind first second => ?_,
    fun before fault first failed => ?_⟩
  · rw [apart, failed]
    rfl
  · rw [apart, first, second]
    rfl
  · rw [apart, first, failed]
    rfl

/-- The multiplication sign is no operator. Here it stands behind five bytes. -/
theorem read_joined_of_foreign_sign :
    read ".5\t\n1×2" = .error (.invalidCharacter '×' 5) := by
  have joined := @read_joined "\t\n" (by simp) (by decide) ".5" "1×2"
  obtain ⟨before, first⟩ : ∃ before, read ".5" = .ok before :=
    ⟨[.number 0.5 ".5"], by decide +kernel⟩
  exact joined.2.2 before (.invalidCharacter '×' 1) first (by decide +kernel)

end Token

/-! ## Characters that are read -/

namespace Token

/-- Whether a character is a gap, stands in a numeral, or is a sign or a parenthesis. -/
def isLegible (char : Char) : Bool :=
  isGap char || startsNumeral char || (Arith.ofChar? char).isSome || char = '(' || char = ')'

theorem IsWritten.isLegible {token : Token} (written : token.IsWritten) :
    ∀ char ∈ token.text.toList, Token.isLegible char = true := by
  match token with
  | number value raw =>
      intro char member
      simp [Token.isLegible, startsNumeral_of_mem written.1 char member]
  | paren .opening | paren .closing => exact List.all_eq_true.mp (by decide)
  | operator .negate => exact absurd rfl written
  | operator (.binary operation) => cases operation <;> exact List.all_eq_true.mp (by decide)

/-- A text from which tokens can be read has no other characters. -/
theorem Spelled.isLegible {tokens : List Token} {text : List Char}
    (spelled : Spelled tokens text) : ∀ char ∈ text, Token.isLegible char = true := by
  have inGap : ∀ gap : List Char, (∀ char ∈ gap, isGap char = true) →
      ∀ char ∈ gap, Token.isLegible char = true := by
    intro gap blank char member
    simp [Token.isLegible, blank char member]
  induction spelled with
  | finished blank => exact inGap _ blank
  | token blank written _ recurse =>
      simp only [List.forall_mem_append]
      exact ⟨⟨inGap _ blank, written.isLegible⟩, recurse⟩

/-- The only white space that is read is that of gaps. -/
theorem isGap_of_isBlank {char : Char} (legible : isLegible char = true)
    (blank : Text.isBlank char = true) : isGap char = true := by
  simp only [isLegible, Bool.or_eq_true, decide_eq_true_eq] at legible
  rcases legible with (((gap | numeral) | sign) | rfl) | rfl
  · exact gap
  · have figure : Decimal.isFigure char = true := by
      simp only [startsNumeral, Bool.or_eq_true, decide_eq_true_eq] at numeral
      rcases numeral with digit | rfl
      · simp [Decimal.isFigure, digit]
      · decide
    rw [Decimal.isBlank_of_isFigure figure] at blank
    cases blank
  · obtain ⟨operation, isSign⟩ := Option.isSome_iff_exists.mp sign
    rw [Arith.ofChar?_eq_some_iff.mp isSign] at blank
    cases operation <;> exact absurd blank (by decide)
  · exact absurd blank (by decide)
  · exact absurd blank (by decide)

end Token

/-- Nothing else stands in a text that has a value. -/
theorem Formula.isLegible_of_value {text : String} {result : Float}
    (valued : value text = .ok result) : ∀ char ∈ text.toList, Token.isLegible char = true := by
  obtain ⟨ordered, converted, _⟩ := bind_eq_ok_iff.mp valued
  obtain ⟨tokens, read, _⟩ := bind_eq_ok_iff.mp converted
  exact (Token.spelled_of_read read).isLegible

end PanelCalc
