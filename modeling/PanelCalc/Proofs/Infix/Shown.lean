import PanelCalc.Proofs.Decimal.Numerals
import PanelCalc.Proofs.Decimal.Redisplay
import PanelCalc.Proofs.Infix.Finite
import PanelCalc.Proofs.Infix.Spacing
import PanelCalc.Proofs.Infix.Value

/-!
# Displayed numbers as formulas

What becomes of a displayed number that is computed again. Without an exponent it is a formula that
is displayed as it stands: `Formula.shown_display`. With one it is no formula, since no token
contains the letter of an exponent: `Formula.value_of_mem_exponent`.
-/

namespace PanelCalc

/-- A text with the letter of an exponent has no value. -/
theorem Formula.value_of_mem_exponent {text : String} (letter : 'e' ∈ text.toList) :
    ∃ fault, value text = .error fault := by
  cases computed : value text with
  | error fault => exact ⟨fault, rfl⟩
  | ok result => exact absurd (isLegible_of_value computed 'e' letter) (by decide)

/-- The numeral of figures can stand in a text unless it lies past the finite range. -/
theorem Decimal.Figures.Digital.isWritten {figures : Decimal.Figures} (digital : figures.Digital)
    (bounded : Decimal.magnitude figures.numeral < Binary64.infinityBits) :
    (Token.number (Binary64.ofMagnitude false (Decimal.magnitude figures.numeral))
      (String.ofList figures.numeral)).IsWritten := by
  refine ⟨?_, ?_⟩
  · simpa using digital.splitNumeral_numeral
  · simp [Decimal.read?, digital.any_isDigit_numeral, bounded]

/-- The numeral of figures is the text of a single number. -/
theorem Decimal.Figures.Digital.spelled_numeral {figures : Decimal.Figures}
    (digital : figures.Digital)
    (bounded : Decimal.magnitude figures.numeral < Binary64.infinityBits) :
    Token.Spelled [.number (Binary64.ofMagnitude false (Decimal.magnitude figures.numeral))
      (String.ofList figures.numeral)] figures.numeral := by
  have spelled := @Token.Spelled.token [] _ _ _ (by simp) (digital.isWritten bounded)
    (@Token.Spelled.finished [] (by simp))
  simpa [Token.text] using spelled

/-- A minus sign stands directly in front of what it negates. -/
theorem Token.Spelled.minus {tokens : List Token} {text : List Char}
    (spelled : Spelled tokens text) :
    Spelled (.operator (.binary .sub) :: tokens) ('-' :: text) :=
  @Token.Spelled.token [] (.operator (.binary .sub)) _ _ (by simp) (by simp [Token.IsWritten])
    spelled

/-- The value of a negated number. -/
theorem Expression.value_negate_number {value : Float} (raw : String)
    (bounded : Binary64.isFinite (-value) = true) :
    (negate (number value raw)).value = .ok (-value) := by
  rw [Expression.value_eq_firstFault, firstFault?_negate]
  simp only [firstFault?, nodes, List.findSome?_cons, List.findSome?_nil, ownFault?, bare, bounded,
    Option.none_or, if_true]

/-- Figures without an exponent are a formula of the number nearest to their numeral, with their
sign. -/
theorem Formula.value_of_plain {figures : Decimal.Figures} (digital : figures.Digital)
    (plain : figures.exponent = none)
    (bounded : Decimal.magnitude figures.numeral < Binary64.infinityBits) :
    ∃ result, value (String.ofList figures.text) = .ok result ∧
      Binary64.isFinite result = true ∧
      Binary64.magnitudeBits result = Decimal.magnitude figures.numeral ∧
      Binary64.isNegative result = figures.negative := by
  have spelled := digital.spelled_numeral bounded
  have magnitudeIs := Binary64.magnitudeBits_ofMagnitude false bounded
  have signIs := Binary64.isNegative_ofMagnitude false bounded
  generalize Binary64.ofMagnitude false (Decimal.magnitude figures.numeral) = result at *
  have bounded : Binary64.isFinite result = true := by
    simp [Binary64.isFinite, magnitudeIs, bounded]
  have number := Expression.Derives.number result (String.ofList figures.numeral)
  rw [Decimal.Figures.text_of_plain plain]
  cases signed : figures.negative with
  | false =>
      have valued := @value_of_spelled (String.ofList figures.numeral) _ _
        (.term (.factor number)) (by rwa [String.toList_ofList])
      exact ⟨result, valued, bounded, magnitudeIs, signIs⟩
  | true =>
      have valued := @value_of_spelled (String.ofList (['-'] ++ figures.numeral)) _ _
        (.term (.factor (.negate number))) (by
          rw [String.toList_ofList]
          exact spelled.minus)
      have negatedMagnitude := Binary64.magnitudeBits_neg bounded
      have negated : Binary64.isFinite (-result) = true := by
        simpa only [Binary64.isFinite, negatedMagnitude] using bounded
      refine ⟨-result, ?_, negated, negatedMagnitude.trans magnitudeIs, ?_⟩
      · exact valued.trans (Expression.value_negate_number _ negated)
      · rw [Binary64.isNegative_neg bounded, signIs]
        rfl

/-- Zero is displayed as it is. -/
theorem Formula.shown_zero :
    shown (String.ofList Decimal.Figures.zero.text) =
      .ok (String.ofList Decimal.Figures.zero.text) := by
  decide +kernel

/-- A displayed number without an exponent is a formula that is displayed as it stands. -/
theorem Formula.shown_display {value : Float} (bounded : Binary64.isFinite value = true)
    (plain : 'e' ∉ (Decimal.display value).toList) :
    shown (Decimal.display value) = .ok (Decimal.display value) := by
  rw [Decimal.toList_display bounded] at plain
  have digital := Decimal.digital_figures value
  have noExponent := Decimal.Figures.exponent_eq_none_of_text plain
  have displayed : Decimal.display value = String.ofList (Decimal.figures value).text := by
    rw [Decimal.display, if_pos bounded]
  by_cases zero : Binary64.magnitudeBits value = 0
  · rw [displayed, Decimal.figures_of_zero zero]
    exact shown_zero
  · have positive := Binary64.unitsOfBits_pos zero
    rw [Decimal.figures_eq zero] at digital noExponent displayed
    obtain ⟨small, _⟩ := Decimal.nearest_magnitude positive noExponent
    obtain ⟨some, again⟩ := Decimal.figuresOfBits_magnitude positive noExponent
    obtain ⟨result, valued, resultBounded, magnitudeIs, signIs⟩ :=
      value_of_plain digital noExponent small
    have nonzero : Binary64.magnitudeBits result ≠ 0 := by
      rw [magnitudeIs]
      intro isZero
      rw [isZero] at some
      exact Nat.lt_irrefl 0 some
    have negativeIs : (Decimal.figuresOfBits (Binary64.isNegative value)
        (Binary64.magnitudeBits value)).negative = Binary64.isNegative value :=
      Decimal.Rounded.negative_figures _ _ _
    have redisplayed : Decimal.display result = Decimal.display value := by
      rw [displayed, Decimal.display, if_pos resultBounded, Decimal.figures_eq nonzero, signIs,
        negativeIs, magnitudeIs, again]
    rw [shown_eq_ok_iff]
    exact ⟨result, displayed ▸ valued, redisplayed.symm⟩

end PanelCalc
