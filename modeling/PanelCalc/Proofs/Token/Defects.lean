import PanelCalc.Proofs.Decimal.Reads
import PanelCalc.Proofs.Token.Lexemes

/-!
# Defects of texts

A text from which no tokens can be read has a defect: a character that belongs to no token, or a run
of digits without a finite value. What stands in front of the defect can be read, and the fault that
is found names the defect: `Token.read_eq_error_iff_defect`.
-/

namespace PanelCalc

namespace Decimal

/-- Whether a run of digits denotes a number past the finite range. -/
def Overflows (run : List Char) : Prop :=
  ∃ number value, numeral? run = some number ∧ Reads number value ∧
    Binary64.isFinite value = false

theorem isDigit_iff_mem {char : Char} : isDigit char = true ↔ char ∈ "0123456789".toList := by
  constructor
  · intro digit
    obtain ⟨least, most⟩ := isDigit_iff_range.mp digit
    rw [← Char.ofNat_toNat char]
    interval_cases char.toNat <;> decide
  · exact List.all_eq_true.mp (by decide) char

/-- A run is a whole numeral. -/
theorem IsRun.splitNumeral {run : List Char} (isRun : IsRun run) :
    Token.splitNumeral false run = (run, []) := by
  have whole : LongestRun run (run ++ []) := longestRun_append_iff.mpr ⟨isRun, by simp⟩
  simpa using splitNumeral_eq_iff.mpr whole

/-- A run without a digit is a bare point. -/
theorem IsRun.eq_point {run : List Char} (isRun : IsRun run) (nonempty : run ≠ [])
    (noDigit : run.any isDigit = false) : run = ['.'] := by
  rw [List.any_eq_false] at noDigit
  have points : run = List.replicate run.length '.' := List.eq_replicate_of_mem fun char member =>
    (isRun.figures char member).resolve_left (noDigit char member)
  have single : run.length = 1 := by
    have atMost := isRun.points
    rw [points, List.count_replicate_self] at atMost
    exact atMost.antisymm (List.length_pos_iff.mpr nonempty)
  rw [points, single]
  rfl

/-- A run with a digit overflows if its magnitude is that of infinity. -/
theorem IsRun.overflows_iff {run : List Char} (isRun : IsRun run)
    (digit : run.any isDigit = true) :
    Overflows run ↔ Binary64.infinityBits ≤ magnitude run := by
  have positive : 0 < tenTo (places run) := Nat.pow_pos (by decide)
  have denotes : numeral? run = some ((numerator run : ℚ) / tenTo (places run)) :=
    if_pos ⟨isRun.splitNumeral, digit⟩
  have nonnegative : (0 : ℚ) ≤ numerator run / tenTo (places run) := by positivity
  have beyond : Binary64.rangeEnd ≤ |(numerator run : ℚ) / tenTo (places run)| ↔
      Binary64.infinityBits ≤ magnitude run := by
    rw [abs_of_nonneg nonnegative, ← not_lt, ← Binary64.nearestBits_units_lt_iff positive, not_lt,
      magnitude]
  rw [← beyond]
  constructor
  · rintro ⟨number, value, denoted, reads, unbounded⟩
    cases denotes.symm.trans denoted
    exact reads.isFinite_eq_false_iff.mp unbounded
  · intro large
    have reads := reads_quotient (numerator run) positive
    exact ⟨_, _, denotes, reads, reads.isFinite_eq_false_iff.mpr large⟩

/-- A run reads as no number if it is a bare point or overflows. -/
theorem IsRun.read?_eq_none_iff {run : List Char} (isRun : IsRun run) (nonempty : run ≠ []) :
    read? run = none ↔ run = ['.'] ∨ Overflows run := by
  cases digit : run.any isDigit with
  | false =>
      simp only [isRun.eq_point nonempty digit, true_or, iff_true]
      decide
  | true =>
      have noPoint : run ≠ ['.'] := by
        rintro rfl
        exact absurd digit (by decide)
      rw [isRun.overflows_iff digit]
      simp [read?, digit, noPoint]

end Decimal

namespace Token

open Decimal (IsRun LongestRun Overflows longestRun_append_iff)

/-- Which characters write an operation. -/
theorem isSome_ofChar?_iff {char : Char} :
    (Arith.ofChar? char).isSome = true ↔ char ∈ "+-*/%".toList := by
  constructor
  · intro sign
    obtain ⟨operation, isSign⟩ := Option.isSome_iff_exists.mp sign
    rw [Arith.ofChar?_eq_some_iff.mp isSign]
    cases operation <;> decide
  · have signs : ∀ char ∈ "+-*/%".toList, (Arith.ofChar? char).isSome = true :=
      List.all_eq_true.mp (by decide)
    exact signs char

/-- A character is read just when it is a digit, a point, a sign, a parenthesis or a blank. -/
theorem isLegible_iff {char : Char} :
    isLegible char = true ↔ char ∈ "0123456789.+-*/%() \t\r\n".toList := by
  have parts : "0123456789.+-*/%() \t\r\n".toList =
      "0123456789".toList ++ ['.'] ++ "+-*/%".toList ++ ['(', ')'] ++ [' ', '\t', '\r', '\n'] := by
    decide
  simp only [isLegible, startsNumeral, Bool.or_eq_true, decide_eq_true_eq, isGap_iff,
    Decimal.isDigit_iff_mem, isSome_ofChar?_iff, parts, List.mem_append, List.mem_cons,
    List.not_mem_nil]
  tauto

/-- Whether a number that tokens end with, at the very end of a front, is as long as it can be in
front of what stands behind. -/
def Unjoined (tokens : List Token) (front behind : List Char) : Prop :=
  ∀ value raw, tokens.getLast? = some (.number value raw) → raw.toList <:+ front →
    LongestRun raw.toList (raw.toList ++ behind)

/-- `Defect text fault` says that a text has a defect and which fault names it. -/
inductive Defect (text : String) : Fault → Prop where
  /-- A character that belongs to no token and is no blank. -/
  | character {front behind : String} {char : Char} {tokens : List Token}
      (whole : text = front ++ String.singleton char ++ behind)
      (foreign : char ∉ "0123456789.+-*/%() \t\r\n".toList)
      (before : read front = .ok tokens) :
      Defect text (.invalidCharacter char front.utf8ByteSize)
  /-- A run of digits with at most one point, as long as it can be, that is a bare point or denotes
  no finite number. It is no part of the number in front of it, as the point in `12.` is. -/
  | number {front run behind : String} {tokens : List Token}
      (whole : text = front ++ run ++ behind)
      (longest : LongestRun run.toList (run ++ behind).toList)
      (unread : run = "." ∨ Overflows run.toList)
      (before : read front = .ok tokens)
      (unjoined : Unjoined tokens front.toList (run ++ behind).toList) :
      Defect text (.invalidNumber run front.utf8ByteSize)

/-- The text of a token that can stand in a text is not empty. -/
theorem IsWritten.text_ne_nil {token : Token} (written : token.IsWritten) :
    token.text.toList ≠ [] := by
  by_cases isNumber : ∃ value raw, token = .number value raw
  · obtain ⟨value, raw, rfl⟩ := isNumber
    obtain ⟨digit, member, _⟩ := written.exists_digit
    exact List.ne_nil_of_mem member
  · obtain ⟨char, text, _⟩ := startsNumeral_of_text (by simpa using isNumber) written
    simp [text]

/-- Only no tokens take up no text. -/
theorem Begins.eq_nil {rest : List Char} {tokens : List Token} (begins : Begins rest tokens []) :
    tokens = [] := by
  generalize empty : ([] : List Char) = front at begins
  cases begins with
  | finished => rfl
  | token _ written _ _ => simp [written.text_ne_nil] at empty

/-- The last of the tokens that a text begins with does not go on where the text does. -/
theorem Begins.unjoined {rest front : List Char} {tokens : List Token}
    (begins : Begins rest tokens front) : Unjoined tokens front rest := by
  intro value raw last atEnd
  obtain ⟨earlier, rfl⟩ := List.getLast?_eq_some_iff.mp last
  obtain ⟨left, right, rfl, _, onward, written, longest⟩ := begins.around
  have longestHere := longest value raw rfl
  cases onward with
  | finished blank =>
      rcases List.eq_nil_or_concat right with rfl | ⟨others, gap, rfl⟩
      · exact longestHere
      · -- A gap behind the number would be its last character.
        obtain ⟨before, same⟩ := atEnd
        obtain ⟨figures, figure, text⟩ := List.eq_nil_or_concat raw.toList |>.resolve_left
          written.text_ne_nil
        have noGap := written.isGap figure (by simp [Token.text, text])
        have isSame : figure = gap := by
          rw [text] at same
          have lasts := congrArg List.getLast? same
          simpa using lasts
        rw [isSame, blank gap (by simp)] at noGap
        cases noGap

/-- Tokens begin a text just when they take up its front by itself and the last of them does not go
on behind it. -/
theorem begins_iff {rest front : List Char} {tokens : List Token} :
    Begins rest tokens front ↔ Begins [] tokens front ∧ Unjoined tokens front rest := by
  refine ⟨fun begins => ⟨begins.alone, begins.unjoined⟩, ?_⟩
  rintro ⟨begins, unjoined⟩
  induction begins with
  | finished blank => exact .finished blank
  | @token gap token others front blank written longest begins recurse =>
      refine .token blank written (fun value raw isNumber => ?_) (recurse ?_)
      · subst isNumber
        cases front with
        | nil =>
            rw [begins.eq_nil] at unjoined
            exact unjoined value raw rfl ⟨gap, by simp [Token.text]⟩
        | cons char behind =>
            have here := longestRun_append_iff.mp (longest value raw rfl)
            exact longestRun_append_iff.mpr here
      · intro value raw last atEnd
        refine unjoined value raw ?_ (atEnd.trans ⟨gap ++ token.text.toList, rfl⟩)
        rw [List.getLast?_cons, last]
        rfl

/-- No number goes on with a character that is neither a digit nor a point. -/
theorem Begins.unjoined_of_illegible {front behind : List Char} {tokens : List Token} {char : Char}
    (begins : Begins [] tokens front) (illegible : isLegible char = false) :
    Unjoined tokens front (char :: behind) := by
  intro value raw last atEnd
  have alone := begins.unjoined value raw last atEnd
  refine longestRun_append_iff.mpr ⟨alone.isRun, fun next first longer => ?_⟩
  cases first
  have starts := longer.figures char (by simp)
  rcases starts with digit | rfl
  · simp [isLegible, startsNumeral, digit] at illegible
  · exact absurd illegible (by decide)

/-- The fault that is found in a text names a defect. -/
theorem defect_of_read {text : String} {fault : Fault} (failed : read text = .error fault) :
    Defect text fault := by
  obtain ⟨tokens, front, rest, whole, begins, unreadable⟩ := read_eq_error_iff.mp failed
  have place : Text.size front = (String.ofList front).utf8ByteSize := by
    rw [← Text.size_toList, String.toList_ofList]
  have before : read (String.ofList front) = .ok tokens :=
    read_of_begins (by simpa using begins.alone)
  rw [place] at unreadable
  cases unreadable with
  | @character char behind illegible =>
      refine @Defect.character _ _ (String.ofList behind) _ _ ?_ ?_ before
      · rw [← String.toList_inj, whole]
        simp
      · rwa [← isLegible_iff, Bool.not_eq_true]
  | @number run behind longest nonempty unread =>
      refine @Defect.number _ _ _ (String.ofList behind) _ ?_ ?_ ?_ before ?_
      · rw [← String.toList_inj, whole]
        simp
      · simpa using longest
      · have defect := (longest.isRun.read?_eq_none_iff nonempty).mp unread
        rwa [String.toList_ofList, ← String.toList_inj, String.toList_ofList]
      · simpa using begins.unjoined

/-- The fault that names a defect is found. -/
theorem Defect.read {text : String} {fault : Fault} (defect : Defect text fault) :
    Token.read text = .error fault := by
  cases defect with
  | @character front behind char tokens whole foreign before =>
      have begins := read_eq_ok_iff.mp before
      have illegible : isLegible char = false := by
        rwa [← isLegible_iff, Bool.not_eq_true] at foreign
      have unjoined : Unjoined tokens front.toList (char :: behind.toList) :=
        begins.unjoined_of_illegible illegible
      have parts : text.toList = front.toList ++ char :: behind.toList := by simp [whole]
      refine read_of_unreadable parts (begins_iff.mpr ⟨begins, unjoined⟩) ?_
      rw [Text.size_toList]
      exact .character illegible
  | @number front run behind tokens whole longest unread before unjoined =>
      have parts : text.toList = front.toList ++ (run ++ behind).toList := by simp [whole]
      refine read_of_unreadable parts (begins_iff.mpr ⟨read_eq_ok_iff.mp before, unjoined⟩) ?_
      have nonempty : run.toList ≠ [] := by
        rcases unread with rfl | ⟨number, value, denoted, _⟩
        · decide
        · intro empty
          simp [Decimal.numeral?, empty] at denoted
      have unreadHere := (longest.isRun.read?_eq_none_iff nonempty).mpr
        (unread.imp_left (congrArg String.toList))
      rw [Text.size_toList]
      rw [String.toList_append] at longest ⊢
      simpa using Unreadable.number longest nonempty unreadHere

/-- No tokens can be read from a text just when it has a defect, and the fault that is found is the
one that names it. -/
theorem read_eq_error_iff_defect (text : String) :
    (∀ fault, read text = .error fault ↔ Defect text fault) ∧
      ((∃ tokens, read text = .ok tokens) ↔ ∀ fault, ¬ Defect text fault) := by
  have named : ∀ fault, read text = .error fault ↔ Defect text fault :=
    fun fault => ⟨defect_of_read, Defect.read⟩
  refine ⟨named, ?_⟩
  simp only [← named]
  cases read text with
  | error fault => simp
  | ok tokens => simp

end Token
end PanelCalc
