import PanelCalc.Proofs.Decimal.Expansion
import PanelCalc.Text.Blank
import PanelCalc.Token.Lexer

/-!
# The characters of displayed numbers

A displayed number is never empty, consists of digits, signs, a point and the letter of an
exponent, and is therefore neither the error text nor changed by trimming. It contains that letter
exactly if it is written with an exponent.
-/

namespace PanelCalc.Decimal

/-- Whether a character can stand in a displayed number. -/
def isFigure (char : Char) : Bool :=
  isDigit char || char = '-' || char = '+' || char = '.' || char = 'e'

/-- A digit is none of the other characters of a displayed number. -/
theorem isDigit_iff_range {char : Char} :
    isDigit char = true ↔ 48 ≤ char.toNat ∧ char.toNat ≤ 57 := by
  simp only [isDigit, Bool.and_eq_true, decide_eq_true_eq]
  rfl

/-- The digits of a whole number are digits. -/
theorem isDigit_of_mem_toDigits {number : Nat} {char : Char}
    (member : char ∈ Nat.toDigits 10 number) : isDigit char = true := by
  have digit := Nat.isDigit_of_mem_toDigits (by decide) (by decide) member
  simp only [Char.isDigit, Bool.and_eq_true, decide_eq_true_eq] at digit
  exact isDigit_iff_range.mpr digit

namespace Figures

/-- Figures in which a digit stands in front of the point, and nothing but digits beside it. -/
structure Digital (figures : Figures) : Prop where
  whole_ne_nil : figures.whole ≠ []
  whole : ∀ char ∈ figures.whole, isDigit char = true
  fraction : ∀ char ∈ figures.fraction, isDigit char = true

theorem digital_zero : zero.Digital := ⟨by simp [zero], by simp [zero]; decide, by simp [zero]⟩

/-- A row of digits with a point behind some of them. -/
theorem digital_split {digits : List Char} (notEmpty : digits ≠ [])
    (all : ∀ char ∈ digits, isDigit char = true) {places : Nat} (positive : 0 < places)
    (negative : Bool) (exponent : Option Int) :
    Digital ⟨negative, digits.take places, significant (digits.drop places), exponent⟩ := by
  refine ⟨?_, ?_, ?_⟩
  · simp only [ne_eq, List.take_eq_nil_iff, notEmpty, or_false]
    omega
  · exact fun char member => all char (List.mem_of_mem_take member)
  · exact fun char member => all char (List.mem_of_mem_drop (mem_of_mem_significant member))

theorem isFigure_of_mem_exponentText {exponent : Int} {char : Char}
    (member : char ∈ exponentText exponent) : isFigure char = true := by
  rcases List.mem_cons.mp member with rfl | inside
  · split <;> decide
  · simp [isFigure, isDigit_of_mem_toDigits inside]

/-- The text of figures has no other characters than those of a displayed number. -/
theorem Digital.isFigure_of_mem_text {figures : Figures} (digital : figures.Digital)
    {char : Char} (member : char ∈ figures.text) : isFigure char = true := by
  simp only [text, List.mem_append] at member
  rcases member with ((sign | whole) | fraction) | exponent
  · split at sign
    · rw [List.mem_singleton.mp sign]
      decide
    · cases sign
  · simp [isFigure, digital.whole char whole]
  · split at fraction
    · cases fraction
    · rcases List.mem_cons.mp fraction with rfl | inside
      · decide
      · simp [isFigure, digital.fraction char inside]
  · split at exponent
    · rcases List.mem_cons.mp exponent with rfl | inside
      · decide
      · exact isFigure_of_mem_exponentText inside
    · cases exponent

/-- A digit stands in front, and no sign. -/
theorem Digital.exists_whole {figures : Figures} (digital : figures.Digital) :
    ∃ char others, figures.whole = char :: others ∧ char ≠ '-' := by
  obtain ⟨char, others, whole⟩ := List.exists_cons_of_ne_nil digital.whole_ne_nil
  refine ⟨char, others, whole, ?_⟩
  rintro rfl
  exact absurd (digital.whole '-' (by simp [whole])) (by decide)

theorem Digital.text_ne_nil {figures : Figures} (digital : figures.Digital) :
    figures.text ≠ [] := by
  simp [text, digital.whole_ne_nil]

/-- An exponent is announced by its letter. -/
theorem exponent_eq_none_of_text {figures : Figures} (noLetter : 'e' ∉ figures.text) :
    figures.exponent = none := by
  cases written : figures.exponent with
  | none => rfl
  | some exponent => simp [text, written] at noLetter

end Figures

/-- The figures of a rounded number are digital. -/
theorem Rounded.digital_figures (negative : Bool) {count : Nat} (positive : 0 < count)
    (number : Rounded) : (number.figures negative count).Digital := by
  have digits : ∀ char ∈ lastDigits count number.significand, isDigit char = true :=
    fun _ member => isDigit_of_mem_lastDigits member
  have notEmpty := lastDigits_ne_nil positive number.significand
  unfold Rounded.figures Rounded.expansion Expansion.figures
  split
  · exact Figures.digital_split notEmpty digits (by decide) negative _
  split
  · exact Figures.digital_split notEmpty digits (Nat.succ_pos _) negative _
  · refine ⟨by simp, by simp; decide, fun char member => ?_⟩
    rcases List.mem_append.mp (Figures.mem_of_mem_significant member) with zeros | inside
    · rw [List.eq_of_mem_replicate zeros]
      decide
    · exact digits char inside

theorem digital_figures (value : Float) : (figures value).Digital := by
  by_cases zero : Binary64.magnitudeBits value = 0
  · rw [figures_of_zero zero]
    exact Figures.digital_zero
  · rw [figures_eq zero]
    exact Rounded.digital_figures _ (displayDigits_pos _) _

/-- A finite number is displayed by its figures. -/
theorem toList_display {value : Float} (bounded : Binary64.isFinite value = true) :
    (display value).toList = (figures value).text := by
  simp [display, bounded]

theorem isFigure_of_mem_display {value : Float} (bounded : Binary64.isFinite value = true)
    {char : Char} (member : char ∈ (display value).toList) : isFigure char = true := by
  rw [toList_display bounded] at member
  exact (digital_figures value).isFigure_of_mem_text member

theorem display_ne_empty {value : Float} (bounded : Binary64.isFinite value = true) :
    display value ≠ "" := by
  intro empty
  have noFigures := toList_display bounded
  rw [empty] at noFigures
  exact (digital_figures value).text_ne_nil noFigures.symm

/-- No finite number is displayed as an error. -/
theorem display_ne_errorText {value : Float} (bounded : Binary64.isFinite value = true) :
    display value ≠ errorText := by
  intro isError
  have capital : 'E' ∈ (display value).toList := by
    rw [isError]
    decide
  exact absurd (isFigure_of_mem_display bounded capital) (by decide)

/-- No character of a displayed number is white space. -/
theorem isBlank_of_isFigure {char : Char} (isFigure : isFigure char = true) :
    Text.isBlank char = false := by
  simp only [Decimal.isFigure, Bool.or_eq_true, decide_eq_true_eq] at isFigure
  rcases isFigure with (((digit | rfl) | rfl) | rfl) | rfl
  · have range := isDigit_iff_range.mp digit
    simp [Text.isBlank, Text.blankRanges]
    omega
  · decide
  · decide
  · decide
  · decide

end PanelCalc.Decimal

namespace PanelCalc.Text

/-- A text without white space is trimmed already. -/
theorem trim_eq_self {text : String} (solid : ∀ char ∈ text.toList, isBlank char = false) :
    trim text = text := by
  have front : text.toList.dropWhile isBlank = text.toList := by
    cases characters : text.toList with
    | nil => rfl
    | cons char rest => simp [solid char (by simp [characters])]
  have back : text.toList.reverse.dropWhile isBlank = text.toList.reverse := by
    cases characters : text.toList.reverse with
    | nil => rfl
    | cons char rest =>
        have member : char ∈ text.toList := by
          rw [← List.mem_reverse, characters]
          simp
        simp [solid char member]
  rw [trim, front, dropEnd, back, List.reverse_reverse, String.ofList_toList]

end PanelCalc.Text
