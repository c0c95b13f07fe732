import PanelCalc.Proofs.Infix.Balance
import PanelCalc.Proofs.Infix.Value

/-!
# Which formulas are computed

A conversion does not look at what stands beside a token, so some texts that are no expressions
have a value, as `1 2+` has. `Formula.derives_iff_separated_of_value` says that this happens only
where two operands stand side by side. The proof follows a conversion through separated tokens
with `Conversion.Tracks`: the operands that are `lacking` never become fewer, and as long as none
is, the tokens taken begin an expression. A value exists only if none is lacking at the end.
-/

namespace PanelCalc

namespace Expression

/-- An expression is continued by an operator and a factor behind it. -/
theorem Derives.extend {left right : List Token} {leftTree rightTree : Expression}
    (operation : Arith) (before : Derives .sum left leftTree)
    (behind : Derives .factor right rightTree) :
    ∃ tree, Derives .sum (left ++ .operator (.binary operation) :: right) tree := by
  cases joins : Level.ofArith operation with
  | sum => exact ⟨_, .sum joins before (.factor behind)⟩
  | product =>
      cases before with
      | term single => exact ⟨_, .term (.product joins single behind)⟩
      | @sum first second firstTree secondTree outer level start last =>
          refine ⟨.binary outer firstTree (.binary operation secondTree rightTree), ?_⟩
          rw [List.append_assoc, List.cons_append]
          exact .sum level start (.product joins last behind)
  | factor => cases operation <;> cases joins

/-- `Complete depth tokens` says that tokens form an expression but for `depth` open parentheses:
behind the last of them stands an expression, and any factor in the place of the parenthesis and
that expression would leave one parenthesis less open. -/
def Complete : Nat → List Token → Prop
  | 0, tokens => ∃ tree, Derives .sum tokens tree
  | depth + 1, tokens =>
      ∃ before inside tree, tokens = before ++ .paren .opening :: inside ∧
        Derives .sum inside tree ∧
        ∀ factor factorTree, Derives .factor factor factorTree → Complete depth (before ++ factor)

/-- Whether tokens become complete by any factor behind them. -/
def Awaits (depth : Nat) (tokens : List Token) : Prop :=
  ∀ factor tree, Derives .factor factor tree → Complete depth (tokens ++ factor)

theorem awaits_nil : Awaits 0 [] := fun _ tree operand => ⟨tree, .term (.factor operand)⟩

/-- A number is a factor. -/
theorem Awaits.number {depth : Nat} {tokens : List Token} (awaits : Awaits depth tokens)
    (value : Float) (raw : String) : Complete depth (tokens ++ [.number value raw]) :=
  awaits _ _ (.number value raw)

/-- A parenthesis opens where an operand is awaited, and awaits one itself. -/
theorem Awaits.opening {depth : Nat} {tokens : List Token} (awaits : Awaits depth tokens) :
    Awaits (depth + 1) (tokens ++ [.paren .opening]) := by
  intro factor tree operand
  exact ⟨tokens, factor, tree, by simp, .term (.factor operand), awaits⟩

/-- A minus sign where an operand is awaited negates the operand. -/
theorem Awaits.minus {depth : Nat} {tokens : List Token} (awaits : Awaits depth tokens) :
    Awaits depth (tokens ++ [.operator (.binary .sub)]) := by
  intro factor tree operand
  rw [List.append_assoc, List.singleton_append]
  exact awaits _ _ (.negate operand)

/-- An operator behind what is complete awaits its right operand. -/
theorem Complete.operator {depth : Nat} {tokens : List Token} (complete : Complete depth tokens)
    (operation : Arith) : Awaits depth (tokens ++ [.operator (.binary operation)]) := by
  intro factor factorTree operand
  rw [List.append_assoc, List.singleton_append]
  cases depth with
  | zero =>
      obtain ⟨tree, derived⟩ := complete
      exact derived.extend operation operand
  | succ depth =>
      obtain ⟨before, inside, tree, rfl, derived, around⟩ := complete
      obtain ⟨joined, extended⟩ := derived.extend operation operand
      exact ⟨before, _, joined, by simp, extended, around⟩

/-- A closing parenthesis makes a factor of what stands behind the opening one. -/
theorem Complete.closing {depth : Nat} {tokens : List Token}
    (complete : Complete (depth + 1) tokens) : Complete depth (tokens ++ [.paren .closing]) := by
  obtain ⟨before, inside, tree, rfl, derived, around⟩ := complete
  rw [List.append_assoc]
  exact around _ _ (.group derived)

end Expression

namespace Conversion

open Expression (Derives Awaits Complete)

/-- How many operands an operator or a parenthesis has gone without. -/
def lacking (conversion : Conversion) : Int :=
  1 - conversion.surplus - if conversion.operandDue then 1 else 0

/-- What holds of a conversion that has taken separated tokens. -/
structure Tracks (taken : List Token) (conversion : Conversion) : Prop where
  lacks : 0 ≤ conversion.lacking
  awaits : conversion.lacking = 0 → conversion.operandDue = true → Awaits conversion.depth taken
  complete :
    conversion.lacking = 0 → conversion.operandDue = false → Complete conversion.depth taken
  ended : conversion.operandDue = false → ∃ last ∈ taken.getLast?, last.endsOperand = true

theorem tracks_start : Tracks [] {} :=
  ⟨by decide, fun _ _ => Expression.awaits_nil, by simp, by simp⟩

/-- An operand is due behind every token that does not end one. -/
theorem operandDue_of_accept {before after : Conversion} {token : Token}
    (accepted : before.accept token = .ok after) : after.operandDue = !token.endsOperand := by
  match token with
  | .number _ _ | .paren .opening | .operator _ =>
      cases accepted
      rfl
  | .paren .closing =>
      simp only [accept] at accepted
      split at accepted
      · cases accepted
      · cases accepted
        rfl

/-- A token provides what is due and asks for what it leaves due. -/
theorem lacking_of_accept {before after : Conversion} {token : Token}
    (accepted : before.accept token = .ok after) :
    after.lacking = before.lacking + (if before.operandDue then 1 else 0) -
      (before.reading token).surplus - if token.endsOperand then 0 else 1 := by
  obtain ⟨balance, _⟩ := accept_balance accepted
  rw [lacking, lacking, balance, operandDue_of_accept accepted]
  cases token.endsOperand with
  | true =>
      simp only [Bool.not_true, Bool.false_eq_true, if_false, if_true]
      omega
  | false =>
      simp only [Bool.not_false, Bool.false_eq_true, if_false, if_true]
      omega

/-- Where an operand has just ended, separated tokens do not go on with another one. -/
theorem Tracks.operandDue {taken : List Token} {before : Conversion} {token : Token}
    (tracks : Tracks taken before)
    (apart : ∀ last ∈ taken.getLast?, Token.Apart last token)
    (begins : token.beginsOperand = true) : before.operandDue = true := by
  cases due : before.operandDue with
  | true => rfl
  | false =>
      obtain ⟨last, isLast, ends⟩ := tracks.ended due
      have differs := apart last isLast ends
      rw [begins] at differs
      cases differs

/-- Taking a token that keeps tokens separated loses no track of them. -/
theorem Tracks.accept {taken : List Token} {before after : Conversion} {token : Token}
    (tracks : Tracks taken before) (written : token.IsWritten)
    (apart : ∀ last ∈ taken.getLast?, Token.Apart last token)
    (accepted : before.accept token = .ok after) : Tracks (taken ++ [token]) after := by
  have dueAfter := operandDue_of_accept accepted
  obtain ⟨_, depth⟩ := accept_balance accepted
  have lacking := lacking_of_accept accepted
  have lacks := tracks.lacks
  have ended : after.operandDue = false →
      ∃ last ∈ (taken ++ [token]).getLast?, last.endsOperand = true := by
    intro noneDue
    refine ⟨token, by simp, ?_⟩
    simpa [dueAfter] using noneDue
  match token with
  | .number value raw =>
      have due := tracks.operandDue apart rfl
      simp only [due, reading, Token.surplus, Token.endsOperand, if_true] at lacking
      refine ⟨by omega, by simp [dueAfter, Token.endsOperand], fun enough _ => ?_, ended⟩
      rw [depth]
      exact (tracks.awaits (by omega) due).number value raw
  | .paren .opening =>
      have due := tracks.operandDue apart rfl
      simp only [due, reading, Token.surplus, Token.endsOperand, if_true, if_false,
        Bool.false_eq_true] at lacking
      refine ⟨by omega, fun enough _ => ?_, by simp [dueAfter, Token.endsOperand], ended⟩
      rw [depth]
      exact (tracks.awaits (by omega) due).opening
  | .paren .closing =>
      have opened := depth_pos_of_accept accepted
      simp only [reading, Token.surplus, Token.endsOperand, if_true] at lacking
      refine ⟨by split at lacking <;> omega, by simp [dueAfter, Token.endsOperand],
        fun enough _ => ?_, ended⟩
      cases due : before.operandDue with
      | true =>
          rw [due, if_pos rfl] at lacking
          omega
      | false =>
          rw [due, if_neg Bool.false_ne_true] at lacking
          have complete := tracks.complete (by omega) due
          have split : before.depth = before.depth - 1 + 1 := by omega
          rw [split] at complete
          rw [depth]
          exact complete.closing
  | .operator .negate => exact absurd rfl written
  | .operator (.binary operation) =>
      cases due : before.operandDue with
      | false =>
          have binary : role false (.binary operation) = .binary operation := by simp [role]
          simp only [due, reading, binary, Token.surplus, Token.endsOperand, if_false,
            Bool.false_eq_true] at lacking
          refine ⟨by omega, fun enough _ => ?_, by simp [dueAfter, Token.endsOperand], ended⟩
          rw [depth]
          exact (tracks.complete (by omega) due).operator operation
      | true =>
          by_cases minus : operation = .sub
          · subst minus
            have negation : role true (.binary .sub) = .negate := rfl
            simp only [due, reading, negation, Token.surplus, Token.endsOperand, if_true, if_false,
              Bool.false_eq_true] at lacking
            refine ⟨by omega, fun enough _ => ?_, by simp [dueAfter, Token.endsOperand], ended⟩
            rw [depth]
            exact (tracks.awaits (by omega) due).minus
          · have binary : role true (.binary operation) = .binary operation := by
              simp [role, minus]
            simp only [due, reading, binary, Token.surplus, Token.endsOperand, if_true, if_false,
              Bool.false_eq_true] at lacking
            refine ⟨by omega, fun enough _ => ?_, by simp [dueAfter, Token.endsOperand], ended⟩
            omega

/-- A conversion of separated tokens keeps track of all of them. -/
theorem tracks_of_foldlM {tokens : List Token} {after : Conversion}
    (separated : Token.Separated tokens) (written : ∀ token ∈ tokens, token.IsWritten)
    (run : tokens.foldlM accept {} = .ok after) : Tracks tokens after := by
  refine foldlM_keeps Tracks tracks_start ?_ run
  intro taken token others before next whole tracks accepted
  have parts := List.isChain_append.mp (whole ▸ separated)
  have member : token ∈ tokens := by simp [whole]
  exact tracks.accept (written token member) (fun last ends => parts.2.2 last ends token rfl)
    accepted

end Conversion

/-- Separated tokens whose postfix order has a value form an expression. -/
theorem Postfix.derives_of_value {tokens ordered : List Token} {result : Float}
    (separated : Token.Separated tokens) (written : ∀ token ∈ tokens, token.IsWritten)
    (converted : ofInfix tokens = .ok ordered) (computed : value ordered = .ok result) :
    ∃ tree, Expression.Derives .sum tokens tree := by
  obtain ⟨conversion, run, resulted⟩ := ofInfix_eq_ok_iff.mp converted
  have tracks := Conversion.tracks_of_foldlM separated written run
  obtain ⟨balance, closed⟩ := Conversion.result_balance resulted
  have one := surplusOf_of_value computed
  have lacks := tracks.lacks
  -- An operand still due would make the balance exceed what the value allows.
  have noneDue : conversion.operandDue = false := by
    cases due : conversion.operandDue with
    | false => rfl
    | true =>
        simp [Conversion.lacking, due] at lacks
        omega
  have enough : conversion.lacking = 0 := by
    simp [Conversion.lacking, noneDue]
    omega
  have complete := tracks.complete enough noneDue
  rw [closed] at complete
  exact complete

namespace Formula

/-- A formula that has a value is an expression with that value just when no operand stands
directly behind another one. In particular, an operator without an operand on its own side and an
empty pair of parentheses are refused unless two operands stand side by side elsewhere. -/
theorem derives_iff_separated_of_value {text : String} {result : Float}
    (computed : value text = .ok result) :
    ∃ tokens, Token.read text = .ok tokens ∧
      ((∃ tree, Expression.Derives .sum tokens tree ∧ tree.value = .ok result) ↔
        Token.Separated tokens) := by
  obtain ⟨ordered, converted, evaluated⟩ := bind_eq_ok_iff.mp computed
  obtain ⟨tokens, read, rearranged⟩ := bind_eq_ok_iff.mp converted
  have spelled := Token.spelled_of_read read
  refine ⟨tokens, read, ?_, ?_⟩
  · rintro ⟨tree, derived, _⟩
    exact derived.separated
  · intro separated
    obtain ⟨tree, derived⟩ :=
      Postfix.derives_of_value separated spelled.isWritten rearranged evaluated
    refine ⟨tree, derived, ?_⟩
    rw [← value_of_spelled derived spelled, computed]

/-- No operand stands directly behind another one in `-(1+2)%2`, so it is an expression. -/
theorem derives_iff_separated_of_value_of_remainder :
    ∃ tokens tree, Token.read "-(1+2)%2" = .ok tokens ∧
      Expression.Derives .sum tokens tree ∧ tree.value = .ok (-1) := by
  have computed : value "-(1+2)%2" = .ok (-1) := by decide +kernel
  obtain ⟨tokens, read, derivable⟩ := derives_iff_separated_of_value computed
  have readAs : Token.read "-(1+2)%2" =
      .ok [.operator (.binary .sub), .paren .opening, .number 1 "1", .operator (.binary .add),
        .number 2 "2", .paren .closing, .operator (.binary .rem), .number 2 "2"] := by
    decide +kernel
  have separated : Token.Separated tokens := by
    rw [read] at readAs
    cases readAs
    decide
  obtain ⟨tree, derived, valued⟩ := derivable.mpr separated
  exact ⟨tokens, tree, read, derived, valued⟩

/-- The formula `1 2+` has a value although it is no expression: its operator takes both numbers
in front of it. -/
theorem computed_without_derivation :
    ¬ ∀ text result, value text = .ok result →
      ∃ tokens tree, Token.read text = .ok tokens ∧ Expression.Derives .sum tokens tree := by
  intro derivable
  have computed : value "1 2+" = .ok 3 := by decide +kernel
  have read : Token.read "1 2+" =
      .ok [.number 1 "1", .number 2 "2", .operator (.binary .add)] := by decide +kernel
  obtain ⟨tokens, tree, readAs, derived⟩ := derivable "1 2+" 3 computed
  rw [read] at readAs
  cases readAs
  exact absurd derived.separated (by decide)

end Formula
end PanelCalc
