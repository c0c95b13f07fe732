import PanelCalc.Proofs.Decimal.Order
import PanelCalc.Proofs.Token.Defects

/-!
# The values of literals

A literal may have any number of digits, and what it denotes may lie as near to the middle between
two binary64 numbers as it likes. It is read as the nearest one all the same, and refused only where
none is near enough: `Decimal.Literal.isReadExactly`. So literals that denote the same number are read alike,
and those that denote larger numbers are not read as smaller ones.
-/

namespace PanelCalc

/-- The value of a text that is read as a number and nothing else. -/
def Token.soleNumber? (text : String) : Option Float :=
  match read text with
  | .ok [.number value _] => some value
  | _ => none

namespace Decimal

open Binary64 (amountOfBits amountOfBits_strictMono infinityBits isFinite ofMagnitude rangeEnd)

/-! ## Nearest magnitudes -/

/-- `NearestEven bits amount` says that no magnitude is nearer to an amount, and none as near unless
these bits are even. -/
structure NearestEven (bits : Nat) (amount : ℚ) : Prop where
  nearest : Nearest bits amount
  even : ∀ other, |amountOfBits bits - amount| = |amountOfBits other - amount| →
    bits = other ∨ bits % 2 = 0

/-- The magnitude nearest to a smaller amount is not the larger one. -/
theorem NearestEven.le_of_le {bits other : Nat} {lower upper : ℚ} (first : NearestEven bits lower)
    (second : NearestEven other upper) (ordered : lower ≤ upper) : bits ≤ other := by
  by_contra reversed
  have reversed : other < bits := Nat.lt_of_not_le reversed
  have amounts := amountOfBits_strictMono reversed
  have least := Rounded.middle_le_of_closer (first.nearest other) amounts
  have most := Rounded.le_middle_of_closer (second.nearest bits) amounts
  -- Both amounts are the middle of the two magnitudes, so both are even and not neighbours.
  have same : upper = lower := by linarith
  have tie : |amountOfBits bits - lower| = |amountOfBits other - lower| := by
    rw [abs_of_nonneg (by linarith), abs_of_nonpos (by linarith)]
    linarith
  have even := (first.even other tie).resolve_left reversed.ne'
  have otherEven := (second.even bits (same ▸ tie.symm)).resolve_left reversed.ne
  have between := first.nearest (other + 1)
  have above := amountOfBits_strictMono (Nat.lt_succ_self other)
  have below := amountOfBits_strictMono (show other + 1 < bits by omega)
  refine absurd between (not_le.mpr ?_)
  rw [abs_of_nonneg (show 0 ≤ amountOfBits bits - lower by linarith)]
  exact abs_lt.mpr ⟨by linarith, by linarith⟩

/-! ## Literals -/

/-- A row of digits with at most one point among them, and at least one digit. -/
structure Literal where
  chars : List Char
  isRun : IsRun chars
  digit : ∃ char ∈ chars, isDigit char = true

namespace Literal

variable {literal : Literal}

def text (literal : Literal) : String := String.ofList literal.chars

/-- The digits in front of the point, or all of them if there is no point. -/
def whole (literal : Literal) : List Char := literal.chars.takeWhile (· ≠ '.')

/-- The digits behind the point. -/
def fraction (literal : Literal) : List Char := (literal.chars.dropWhile (· ≠ '.')).drop 1

/-- The number that a literal denotes. -/
def amount (literal : Literal) : ℚ :=
  ofDigits literal.whole + ofDigits literal.fraction / 10 ^ literal.fraction.length

/-- Digits contain no point. -/
theorem noPoint_of_digits {digits : List Char} (all : ∀ char ∈ digits, isDigit char = true) :
    ∀ char ∈ digits, decide (char ≠ '.') = true := by
  intro char member
  rw [decide_eq_true_iff]
  rintro rfl
  exact absurd (all _ member) (by decide)

/-- What stands on the two sides of a point behind digits. -/
theorem sides_of_point {front behind : List Char} (parts : literal.chars = front ++ '.' :: behind)
    (digits : ∀ char ∈ front, isDigit char = true) :
    literal.whole = front ∧ literal.fraction = behind := by
  constructor
  · rw [whole, parts, List.takeWhile_append_of_pos (noPoint_of_digits digits),
      List.takeWhile_cons_of_neg (by decide), List.append_nil]
  · rw [fraction, parts, List.dropWhile_append_of_pos (noPoint_of_digits digits),
      List.dropWhile_cons_of_neg (by decide), List.drop_one, List.tail_cons]

/-- Digits without a point have nothing behind it. -/
theorem sides_of_digits (digits : ∀ char ∈ literal.chars, isDigit char = true) :
    literal.whole = literal.chars ∧ literal.fraction = [] := by
  refine ⟨List.takeWhile_eq_self_iff.mpr (noPoint_of_digits digits), ?_⟩
  rw [fraction, List.dropWhile_eq_nil_iff.mpr (noPoint_of_digits digits), List.drop_nil]

/-- A literal with a point has nothing but digits on both sides of it. -/
theorem exists_sides (point : '.' ∈ literal.chars) :
    ∃ front behind, literal.chars = front ++ '.' :: behind ∧
      (∀ char ∈ front, isDigit char = true) ∧ ∀ char ∈ behind, isDigit char = true := by
  obtain ⟨front, behind, parts, noPoint⟩ := List.eq_append_cons_of_mem point
  have figures := literal.isRun.figures
  have points := literal.isRun.points
  rw [parts, List.count_append, List.count_cons_self] at points
  have single : '.' ∉ behind := by
    rw [← List.count_eq_zero]
    omega
  refine ⟨front, behind, parts, fun char member => ?_, fun char member => ?_⟩
  · exact (figures char (by simp [parts, member])).resolve_right fun same => noPoint (same ▸ member)
  · exact (figures char (by simp [parts, member])).resolve_right fun same => single (same ▸ member)

/-- A literal without a point has nothing but digits. -/
theorem digits_of_noPoint (noPoint : '.' ∉ literal.chars) :
    ∀ char ∈ literal.chars, isDigit char = true := fun char member =>
  (literal.isRun.figures char member).resolve_right fun same => noPoint (same ▸ member)

/-- A literal denotes its digits read as one whole number, divided by a power of ten for those
behind the point. -/
theorem amount_eq (literal : Literal) :
    literal.amount = (numerator literal.chars : ℚ) / tenTo (places literal.chars) := by
  have placesIs : places literal.chars = literal.fraction.length := by
    rw [places, fraction, List.length_drop]
  have digits : literal.chars.filter isDigit = literal.whole ++ literal.fraction := by
    by_cases point : '.' ∈ literal.chars
    · obtain ⟨front, behind, parts, frontDigits, behindDigits⟩ := exists_sides point
      obtain ⟨wholeIs, fractionIs⟩ := sides_of_point parts frontDigits
      rw [wholeIs, fractionIs, parts, List.filter_append, List.filter_cons_of_neg (by decide),
        List.filter_eq_self.mpr frontDigits, List.filter_eq_self.mpr behindDigits]
    · have all := digits_of_noPoint point
      obtain ⟨wholeIs, fractionIs⟩ := sides_of_digits all
      rw [wholeIs, fractionIs, List.append_nil, List.filter_eq_self.mpr all]
  rw [amount, numerator, digits, ofDigits_append, placesIs, tenTo_eq]
  push_cast
  field_simp

/-! ## Reading a literal -/

/-- The magnitude found for a literal that is not too large is finite, and it is the nearest one. -/
theorem nearestEven_magnitude (inRange : literal.amount < rangeEnd) :
    magnitude literal.chars < infinityBits ∧
      NearestEven (magnitude literal.chars) literal.amount := by
  have positive : 0 < tenTo (places literal.chars) := Nat.pow_pos (by decide)
  rw [amount_eq] at inRange ⊢
  obtain ⟨bounded, nearest⟩ := Binary64.nearestBits_amount positive inRange
  exact ⟨bounded, fun other => (nearest other).1, fun other => (nearest other).2⟩

/-- The magnitude found for a literal is what the literal's number is read as. -/
theorem reads_magnitude (literal : Literal) :
    Reads literal.amount (ofMagnitude false (magnitude literal.chars)) := by
  have positive : 0 < tenTo (places literal.chars) := Nat.pow_pos (by decide)
  rw [amount_eq, magnitude]
  exact reads_quotient (numerator literal.chars) positive

/-- Literals that denote larger numbers have larger magnitudes. -/
theorem magnitude_le_of_amount_le {literal other : Literal}
    (ordered : literal.amount ≤ other.amount) (inRange : other.amount < rangeEnd) :
    magnitude literal.chars ≤ magnitude other.chars :=
  (nearestEven_magnitude (ordered.trans_lt inRange)).2.le_of_le (nearestEven_magnitude inRange).2
    ordered

theorem read?_chars (inRange : literal.amount < rangeEnd) :
    read? literal.chars = some (ofMagnitude false (magnitude literal.chars)) := by
  have digit : literal.chars.any isDigit = true := List.any_eq_true.mpr literal.digit
  rw [read?, digit, if_pos (by simpa using (nearestEven_magnitude inRange).1)]

theorem read?_chars_eq_none (beyond : rangeEnd ≤ literal.amount) : read? literal.chars = none := by
  have positive : 0 < tenTo (places literal.chars) := Nat.pow_pos (by decide)
  have unbounded : ¬ magnitude literal.chars < infinityBits := by
    rw [magnitude, Binary64.nearestBits_units_lt_iff positive, ← amount_eq]
    exact not_lt.mpr beyond
  simp [read?, unbounded]

/-- A literal that is not too large is read as one number. -/
theorem read_text (inRange : literal.amount < rangeEnd) :
    Token.read literal.text =
      .ok [.number (ofMagnitude false (magnitude literal.chars)) literal.text] := by
  have written :
      (Token.number (ofMagnitude false (magnitude literal.chars)) literal.text).IsWritten :=
    ⟨by simpa [text] using literal.isRun.splitNumeral, by simpa [text] using read?_chars inRange⟩
  exact written.read_text

/-- A literal that is too large is refused as a whole. -/
theorem read_text_eq_error (beyond : rangeEnd ≤ literal.amount) :
    Token.read literal.text = .error (.invalidNumber literal.text 0) := by
  have longest : LongestRun literal.chars (literal.chars ++ []) :=
    longestRun_append_iff.mpr ⟨literal.isRun, by simp⟩
  obtain ⟨char, member, _⟩ := literal.digit
  have unreadable : Token.Unreadable (Text.size []) (literal.chars ++ [])
      (.invalidNumber literal.text 0) :=
    .number longest (List.ne_nil_of_mem member) (read?_chars_eq_none beyond)
  exact Token.read_of_unreadable (by simp [text]) (.finished (by simp)) unreadable

/-- What a literal is read as depends on the number that it denotes. -/
theorem soleNumber?_congr {literal other : Literal} (same : literal.amount = other.amount) :
    Token.soleNumber? literal.text = Token.soleNumber? other.text := by
  unfold Token.soleNumber?
  rcases lt_or_ge literal.amount rangeEnd with inRange | beyond
  · have magnitudes := (magnitude_le_of_amount_le same.le (same ▸ inRange)).antisymm
      (magnitude_le_of_amount_le same.ge inRange)
    rw [read_text inRange, read_text (same ▸ inRange), magnitudes]
  · rw [read_text_eq_error beyond, read_text_eq_error (same ▸ beyond)]

/-! ## Zeros and points that do not count -/

/-- A literal between zeros. -/
def padded (literal : Literal) (leading trailing : Nat) : Literal where
  chars := List.replicate leading '0' ++ literal.chars ++ List.replicate trailing '0'
  isRun := by
    obtain ⟨figures, points⟩ := literal.isRun
    constructor
    · intro char member
      simp only [List.mem_append, List.mem_replicate] at member
      rcases member with (⟨_, rfl⟩ | inside) | ⟨_, rfl⟩
      · exact .inl (by decide)
      · exact figures char inside
      · exact .inl (by decide)
    · simpa [List.count_append, List.count_replicate] using points
  digit := by
    obtain ⟨char, member, digit⟩ := literal.digit
    exact ⟨char, by simp [member], digit⟩

/-- A literal with a point behind it. -/
def pointed (literal : Literal) (noPoint : '.' ∉ literal.chars) : Literal where
  chars := literal.chars ++ ['.']
  isRun := by
    refine ⟨fun char member => ?_, ?_⟩
    · rcases List.mem_append.mp member with inside | last
      · exact literal.isRun.figures char inside
      · exact .inr (List.mem_singleton.mp last)
    · simp [List.count_eq_zero.mpr noPoint]
  digit := by
    obtain ⟨char, member, digit⟩ := literal.digit
    exact ⟨char, by simp [member], digit⟩

theorem isDigit_of_mem_zeros (count : Nat) :
    ∀ char ∈ List.replicate count '0', isDigit char = true := by
  intro char member
  rw [List.eq_of_mem_replicate member]
  decide

/-- Zeros in front of digits do not count. -/
theorem ofDigits_zeros_append (count : Nat) (digits : List Char) :
    ofDigits (List.replicate count '0' ++ digits) = ofDigits digits := by
  rw [ofDigits_append, ofDigits_zeros, Nat.zero_mul, Nat.zero_add]

/-- Zeros in front of a literal do not count, nor do zeros at its end behind the point. -/
theorem amount_padded {leading trailing : Nat} (behind : trailing = 0 ∨ '.' ∈ literal.chars) :
    (literal.padded leading trailing).amount = literal.amount := by
  by_cases point : '.' ∈ literal.chars
  · obtain ⟨front, rest, parts, frontDigits, _⟩ := exists_sides point
    obtain ⟨wholeIs, fractionIs⟩ := sides_of_point parts frontDigits
    have paddedParts : (literal.padded leading trailing).chars =
        List.replicate leading '0' ++ front ++ '.' :: (rest ++ List.replicate trailing '0') := by
      simp [padded, parts]
    have paddedDigits : ∀ char ∈ List.replicate leading '0' ++ front, isDigit char = true :=
      List.forall_mem_append.mpr ⟨isDigit_of_mem_zeros leading, frontDigits⟩
    obtain ⟨paddedWhole, paddedFraction⟩ := sides_of_point paddedParts paddedDigits
    rw [amount, amount, paddedWhole, paddedFraction, wholeIs, fractionIs, ofDigits_zeros_append,
      ofDigits_append, ofDigits_zeros, List.length_append, List.length_replicate, pow_add]
    push_cast
    field_simp
    ring
  · have none : trailing = 0 := behind.resolve_right point
    have digits := digits_of_noPoint point
    obtain ⟨wholeIs, fractionIs⟩ := sides_of_digits digits
    have paddedChars : (literal.padded leading trailing).chars =
        List.replicate leading '0' ++ literal.chars := by
      simp [padded, none]
    have paddedDigits : ∀ char ∈ (literal.padded leading trailing).chars, isDigit char = true := by
      rw [paddedChars]
      exact List.forall_mem_append.mpr ⟨isDigit_of_mem_zeros leading, digits⟩
    obtain ⟨paddedWhole, paddedFraction⟩ := sides_of_digits paddedDigits
    rw [amount, amount, paddedWhole, paddedFraction, wholeIs, fractionIs, paddedChars,
      ofDigits_zeros_append]

/-- A point at the end of a literal does not count. -/
theorem amount_pointed (noPoint : '.' ∉ literal.chars) :
    (literal.pointed noPoint).amount = literal.amount := by
  have digits := digits_of_noPoint noPoint
  obtain ⟨wholeIs, fractionIs⟩ := sides_of_digits digits
  have parts : (literal.pointed noPoint).chars = literal.chars ++ '.' :: [] := rfl
  obtain ⟨pointedWhole, pointedFraction⟩ := sides_of_point parts digits
  rw [amount, amount, pointedWhole, pointedFraction, wholeIs, fractionIs]

/-! ## What literals are read as -/

/-- `literal.IsReadExactly` says that a literal is read as the number that it denotes, as nearly as
there is a binary64 number, and that it is refused only if it is too large for one. -/
structure IsReadExactly (literal : Literal) : Prop where
  accepted : literal.amount < rangeEnd →
    ∃ value, Token.read literal.text = .ok [.number value literal.text] ∧
      isFinite value = true ∧ Reads literal.amount value
  refused : rangeEnd ≤ literal.amount →
    Token.read literal.text = .error (.invalidNumber literal.text 0)
  /-- Neither zeros in front of the literal nor zeros at its end behind the point count. -/
  zeros : ∀ leading trailing, trailing = 0 ∨ '.' ∈ literal.chars →
    Token.soleNumber? (literal.padded leading trailing).text = Token.soleNumber? literal.text
  /-- A point at the end does not count either. -/
  point : ∀ noPoint : '.' ∉ literal.chars,
    Token.soleNumber? (literal.pointed noPoint).text = Token.soleNumber? literal.text
  /-- If a larger literal has a value, this one has a value that is not larger. -/
  ordered : ∀ other : Literal, literal.amount ≤ other.amount →
    ∀ larger, Token.soleNumber? other.text = some larger →
      ∃ value, Token.soleNumber? literal.text = some value ∧ value ≤ larger

theorem soleNumber?_text (inRange : literal.amount < rangeEnd) :
    Token.soleNumber? literal.text = some (ofMagnitude false (magnitude literal.chars)) := by
  rw [Token.soleNumber?, read_text inRange]

theorem soleNumber?_text_eq_none (beyond : rangeEnd ≤ literal.amount) :
    Token.soleNumber? literal.text = none := by
  rw [Token.soleNumber?, read_text_eq_error beyond]

/-- Magnitudes without a sign are ordered as their bits are. -/
theorem ofMagnitude_le {lower upper : Nat} (ordered : lower ≤ upper)
    (bounded : upper < infinityBits) :
    ofMagnitude false lower ≤ ofMagnitude false upper := by
  have boundedLower := ordered.trans_lt bounded
  rw [Binary64.le_iff_signedBits (isFinite_ofMagnitude false boundedLower)
    (isFinite_ofMagnitude false bounded)]
  simpa [Binary64.signedBits, Binary64.isNegative_ofMagnitude, Binary64.magnitudeBits_ofMagnitude,
    boundedLower, bounded] using ordered

/-- Every literal is read exactly. -/
theorem isReadExactly (literal : Literal) : literal.IsReadExactly := by
  constructor
  case accepted =>
    intro inRange
    exact ⟨_, read_text inRange,
      isFinite_ofMagnitude false (nearestEven_magnitude inRange).1, literal.reads_magnitude⟩
  case refused => exact read_text_eq_error
  case zeros =>
    intro leading trailing behind
    exact soleNumber?_congr (amount_padded behind)
  case point =>
    intro noPoint
    exact soleNumber?_congr (amount_pointed noPoint)
  case ordered =>
    intro other ordered larger read
    have inRange : other.amount < rangeEnd := by
      by_contra beyond
      rw [soleNumber?_text_eq_none (not_lt.mp beyond)] at read
      cases read
    rw [soleNumber?_text inRange, Option.some.injEq] at read
    subst read
    refine ⟨_, soleNumber?_text (ordered.trans_lt inRange), ?_⟩
    exact ofMagnitude_le (magnitude_le_of_amount_le ordered inRange)
      (nearestEven_magnitude inRange).1

/-- A row of digits, of which there is at least one. -/
def ofDigit (digit : Char) (others : List Char)
    (all : (digit :: others).all isDigit = true) : Literal where
  chars := digit :: others
  isRun := by
    have digits := List.all_eq_true.mp all
    refine ⟨fun char member => .inl (digits char member), ?_⟩
    rw [List.count_eq_zero.mpr fun point => absurd (digits _ point) (by decide)]
    exact Nat.zero_le 1
  digit := ⟨digit, List.mem_cons_self, List.all_eq_true.mp all digit List.mem_cons_self⟩

/-- A literal in the middle between two numbers is read as the even one, with zeros and a point
around it as well as without. -/
theorem isReadExactly_of_halfway :
    let literal := ofDigit '9' "007199254740993".toList (by decide)
    literal.amount = 2 ^ 53 + 1 ∧
      Token.read literal.text = .ok [.number 9007199254740992 "9007199254740993"] ∧
      Reads (2 ^ 53 + 1) 9007199254740992 ∧
      Token.soleNumber? (literal.padded 2 0).text = some 9007199254740992 ∧
      ∀ noPoint, Token.soleNumber? (literal.pointed noPoint).text = some 9007199254740992 := by
  intro literal
  have exactly := literal.isReadExactly
  have wholeIs : ofDigits literal.whole = 2 ^ 53 + 1 := by decide
  have fractionIs : literal.fraction = [] := by decide
  have amountIs : literal.amount = 2 ^ 53 + 1 := by
    rw [amount, wholeIs, fractionIs]
    norm_num [ofDigits]
  have inRange : literal.amount < rangeEnd := by
    have power := @Binary64.two_pow_lt_rangeEnd 54 (by decide)
    rw [amountIs]
    norm_num at power ⊢
    linarith
  have evenOne : Token.read literal.text =
      .ok [.number 9007199254740992 "9007199254740993"] := by decide +kernel
  obtain ⟨value, read, _, reads⟩ := exactly.accepted inRange
  rw [evenOne, Except.ok.injEq, List.cons.injEq, Token.number.injEq] at read
  obtain ⟨⟨rfl, _⟩, _⟩ := read
  have alone : Token.soleNumber? literal.text = some 9007199254740992 := by
    rw [Token.soleNumber?, evenOne]
  rw [amountIs] at reads
  refine ⟨amountIs, evenOne, reads, ?_, ?_⟩
  · exact (exactly.zeros 2 0 (.inl rfl)).trans alone
  · exact fun noPoint => (exactly.point noPoint).trans alone

/-- In the middle between two numbers, a single digit far behind the point decides. -/
example :
    Token.soleNumber? "9007199254740993" = some 9007199254740992 ∧
      Token.soleNumber? "009007199254740993.00000000000000000000000000000000000001000" =
        some 9007199254740994 := by
  decide +kernel

end Literal
end Decimal
end PanelCalc
