import PanelCalc.Panel
import PanelCalc.Proofs.Decimal.Notation
import PanelCalc.Proofs.Infix.Factors
import PanelCalc.Proofs.Infix.Shown

/-!
# Computing on with a negative result

The text of a negative result is a minus sign and a number. It needs no parentheses to count as one
operand: the minus sign negates nothing but the number, where an operation follows the result and
where the result follows an operation. `Panel.negative_is_operand` says so of tokens, of a result
on which typing goes on and of one that is appended to an expression.
-/

namespace PanelCalc

variable {value : Float}

/-- The text of a negative number. -/
theorem Decimal.display_of_negative (bounded : Binary64.isFinite value = true)
    (negative : Binary64.isNegative value = true) (nonzero : Binary64.isZero value = false) :
    ∃ figures : Figures, figures.Digital ∧ figures.negative = true ∧
      display value = String.ofList figures.text ∧
      (figures.exponent = none → magnitude figures.numeral < Binary64.infinityBits) := by
  have notZero : Binary64.magnitudeBits value ≠ 0 := by simpa [Binary64.isZero] using nonzero
  have digital := digital_figures value
  rw [figures_eq notZero] at digital
  refine ⟨_, digital, ?_, display_eq_text bounded notZero, fun plain => ?_⟩
  · rw [figuresOfBits, Rounded.negative_figures, negative]
  · exact (nearest_magnitude (Binary64.unitsOfBits_pos notZero) plain).1

/-- What is read in the text of a negative number, if anything, is a negated number. -/
theorem Token.read_display_of_negative (bounded : Binary64.isFinite value = true)
    (negative : Binary64.isNegative value = true) (nonzero : Binary64.isZero value = false)
    {tokens : List Token} (read : Token.read (Decimal.display value) = .ok tokens) :
    ∃ size raw, tokens = [.operator (.binary .sub), .number size raw] := by
  obtain ⟨figures, digital, sign, text, inRange⟩ :=
    Decimal.display_of_negative bounded negative nonzero
  have noLetter : 'e' ∉ figures.text := by
    intro letter
    rw [← String.toList_ofList (l := figures.text), ← text] at letter
    exact absurd ((spelled_of_read read).isLegible 'e' letter) (by decide)
  have plain := Decimal.Figures.exponent_eq_none_of_text noLetter
  have spelled := (digital.spelled_numeral (inRange plain)).minus
  have whole : (Decimal.display value).toList = '-' :: figures.numeral := by
    rw [text, String.toList_ofList, Decimal.Figures.text_of_plain plain, if_pos sign]
    rfl
  have readAs := read_of_spelled (whole ▸ spelled)
    (@Separated.operator [] _ (.binary .sub) .nil (.singleton _))
  rw [readAs] at read
  cases read
  exact ⟨_, _, rfl⟩

/-- The text of a negative number begins with its sign. -/
theorem Decimal.head_display_of_negative (bounded : Binary64.isFinite value = true)
    (negative : Binary64.isNegative value = true) (nonzero : Binary64.isZero value = false) :
    (display value).toList.head? = some '-' := by
  obtain ⟨figures, digital, sign, text, _⟩ := display_of_negative bounded negative nonzero
  rw [text, String.toList_ofList, digital.head_text_iff, sign]

/-- Parentheses around the text of a negative number make no difference where an operand is due, in
front of an operation sign, of a closing parenthesis and of the end. -/
theorem Formula.sameOrder_of_negative (bounded : Binary64.isFinite value = true)
    (negative : Binary64.isNegative value = true) (nonzero : Binary64.isZero value = false)
    {front behind : String} (awaits : AwaitsOperand front) (follows : FollowsOperand behind) :
    SameOrder (front ++ Decimal.display value ++ behind)
      (front ++ "(" ++ Decimal.display value ++ ")" ++ behind) := by
  refine sameOrder_of_group (fun tokens read => ?_) ?_ awaits follows
  · obtain ⟨size, raw, rfl⟩ := Token.read_display_of_negative bounded negative nonzero read
    exact ⟨_, .negate (.number size raw)⟩
  · rw [Decimal.head_display_of_negative bounded negative nonzero]
    rintro char ⟨⟩
    decide

namespace Panel

/-- What computes on with a result follows an operand. -/
theorem followsOperand_of_continues {typed : String} (onward : continues typed = true)
    (rest : String) : Formula.FollowsOperand (typed ++ rest) := by
  simp only [continues, Bool.or_eq_true, decide_eq_true_eq] at onward
  rcases onward with operation | rfl
  · unfold isOperation at operation
    split at operation
    · rename_i char single
      obtain ⟨arith, isSign⟩ := Option.isSome_iff_exists.mp operation
      refine .inr ⟨.operator (.binary arith), rest, rfl, ?_⟩
      have text : typed = (Token.operator (.binary arith)).text := by
        apply String.toList_injective
        rw [single, Arith.ofChar?_eq_some_iff.mp isSign]
        simp [Token.text, Operator.symbol]
      rw [text]
    · cases operation
  · exact .inr ⟨.paren .closing, rest, rfl, rfl⟩

/-- Where an operand is due, a number behind any number of minus signs counts as one operand: in
front of an operation, a closing parenthesis or the end, parentheses around it and its signs change
nothing, neither the order of the tokens nor the fault. So a negative result counts as one operand
where an operation is typed behind it, and where it is appended to an expression that ends with an
operator. -/
theorem negative_is_operand :
    (∀ (before behind : List Token) (number : Float) (raw : String) (count : Nat),
      (∀ last ∈ before.getLast?, last.endsOperand = false) →
      (∀ next ∈ behind.head?, next.followsOperand = true) →
      let negated := List.replicate count (.operator (.binary .sub)) ++ [.number number raw]
      Postfix.ofInfix (before ++ negated ++ behind) =
        Postfix.ofInfix (before ++ [.paren .opening] ++ negated ++ [.paren .closing] ++ behind)) ∧
    ∀ value, Binary64.isFinite value = true → Binary64.isNegative value = true →
      Binary64.isZero value = false →
      (∀ (panel : Panel) text rest, panel.mode = .result →
        panel.result = Decimal.display value → continues (spelling text) = true →
        Formula.SameOrder ((panel.after (.type text)).expression ++ rest)
          ("(" ++ Decimal.display value ++ ")" ++ spelling text ++ rest)) ∧
      ∀ (panel : Panel) rest, Formula.AwaitsOperand panel.expression →
        Formula.FollowsOperand rest →
        Formula.SameOrder
          ((panel.after (.receive (Decimal.display value) .append)).expression ++ rest)
          (panel.expression ++ "(" ++ Decimal.display value ++ ")" ++ rest) := by
  refine ⟨fun before behind number raw count due follows => ?_,
    fun value bounded negative nonzero => ⟨fun panel text rest shown isResult onward => ?_,
      fun panel rest awaits follows =>
        Formula.sameOrder_of_negative bounded negative nonzero awaits follows⟩⟩
  · obtain ⟨tree, derived⟩ := Expression.derives_negated number raw count
    simpa using Postfix.ofInfix_group_of_factor derived due follows
  · have typed : (panel.after (.type text)).expression =
        Decimal.display value ++ spelling text := by
      simp only [after, type, shown, onward, isResult]
      rfl
    have grouped := Formula.sameOrder_of_negative bounded negative nonzero
      Formula.awaitsOperand_empty (followsOperand_of_continues onward rest)
    rw [typed]
    simpa [String.append_assoc] using grouped

/-- Two minus signs and a number behind `*` are one operand also where a parenthesis is closed that
was not opened. And a shown `-1.5` goes on with a division as `(-1.5)` does. -/
theorem negative_is_operand_of_product_and_quotient :
    let minus : Token := .operator (.binary .sub)
    Postfix.ofInfix [.operator (.binary .mul), minus, minus, .number 3 "3", .paren .closing] =
      Postfix.ofInfix [.operator (.binary .mul), .paren .opening, minus, minus, .number 3 "3",
        .paren .closing, .paren .closing] ∧
    ((showing "1-2.5" "-1.5").after (.type "÷")).expression = "-1.5/" ∧
    Formula.postfixed "(-1.5)/2" = .ok [.number 1.5 "1.5", .operator .negate, .number 2 "2",
      .operator (.binary .div)] ∧
    Formula.postfixed "-1.5/2" = Formula.postfixed "(-1.5)/2" := by
  intro minus
  obtain ⟨tokens, results⟩ := negative_is_operand
  have shown : Decimal.display (-1.5) = "-1.5" := by decide +kernel
  obtain ⟨typed, _⟩ := results (-1.5) (by decide +kernel) (by decide +kernel) (by decide +kernel)
  have grouped : Formula.postfixed "(-1.5)/2" = .ok [.number 1.5 "1.5", .operator .negate,
      .number 2 "2", .operator (.binary .div)] := by decide +kernel
  refine ⟨tokens [.operator (.binary .mul)] [.paren .closing] 3 "3" 2 (by simp [Token.endsOperand])
    (by simp [Token.followsOperand]), by decide, grouped, ?_⟩
  have same := typed (showing "1-2.5" "-1.5") "÷" "2" rfl shown.symm (by decide)
  rw [shown] at same
  rw [grouped]
  exact (same _).mpr grouped

end Panel

end PanelCalc
