import PanelCalc.Proofs.Decimal.Figures
import PanelCalc.Proofs.Infix.Finite
import PanelCalc.Proofs.Infix.Replacement
import PanelCalc.Proofs.Infix.Value
import PanelCalc.Proofs.Token.Lexemes

/-!
# Why a formula has no value

Every text has a finite value or a fault, and every fault has its cause in the text:
`Formula.Refuses` has one rule for each of them. The evaluator also knows what to answer to a
parenthesis and to a wrong number of operands. It never comes to that: whatever it answered there,
all formulas would have the same values and faults. `Formula.value_or_refuses` says both.
-/

namespace PanelCalc

/-- No parenthesis is left in postfix order. -/
theorem Postfix.paren_not_mem_of_ofInfix {tokens ordered : List Token}
    (converted : ofInfix tokens = .ok ordered) (side : Paren) : .paren side ∉ ordered := by
  intro member
  obtain ⟨_, isNumber⟩ := mem_of_ofInfix converted member rfl
  cases isNumber

/-! ## Evaluating -/

/-- The plain binary64 value of an operator on the stack that it finds; `none` if that holds too few
operands. -/
def Operator.bare? : Operator → List Float → Option Float
  | negate, operand :: _ => some (-operand)
  | binary operation, right :: left :: _ => some (operation.bare left right)
  | _, _ => none

namespace Postfix

/-- What an evaluation answers to tokens and operands that it should never come to. -/
structure Fallback where
  /-- To a parenthesis. -/
  paren : Paren → List Float → Except Fault (List Float)
  /-- To an operator with a wrong number of operands. -/
  misapplied : Operator → List Float → Except Fault Float

/-- Both are faults of the expression. -/
def Fallback.usual : Fallback where
  paren _ _ := .error strayParen
  misapplied op operands :=
    .error (.invalidExpression
      s!"operator '{op.symbol}' applied to {operands.length} operand(s)")

/-- The value of an operator on operands, the leftmost first. -/
def applyWith (fallback : Fallback) (op : Operator) (operands : List Float) : Except Fault Float :=
  match op, operands with
  | .negate, [operand] => finite (-operand)
  | .binary operation, [left, right] => operation.apply left right
  | op, operands => fallback.misapplied op operands

/-- Takes one token. The operands of an operator are counted first and split off the stack then. -/
def stepWith (fallback : Fallback) (stack : List Float) : Token → Except Fault (List Float)
  | .number value _ => .ok (value :: stack)
  | .operator op =>
      if stack.length < op.arity then .error (shortage op stack.length)
      else
        (applyWith fallback op (stack.take op.arity).reverse).map (· :: stack.drop op.arity)
  | .paren side => fallback.paren side stack

/-- The value of tokens in postfix order. -/
def valueWith (fallback : Fallback) (tokens : List Token) : Except Fault Float :=
  match tokens.foldlM (stepWith fallback) [] with
  | .error fault => .error fault
  | .ok stack => single stack

/-- An operator that finds enough operands is given as many as it takes, whatever would be answered
otherwise. -/
theorem stepWith_operator (fallback : Fallback) (stack : List Float) (op : Operator) :
    stepWith fallback stack (.operator op) = step stack (.operator op) := by
  cases op with
  | negate =>
      cases stack with
      | nil => rfl
      | cons operand below => simp [stepWith, step, applyWith, Operator.arity]
  | binary operation =>
      rcases stack with _ | ⟨right, _ | ⟨left, below⟩⟩
      · rfl
      · rfl
      · simp [stepWith, step, applyWith, Operator.arity]

/-- With the usual answers, this is how tokens are taken. -/
theorem stepWith_usual : stepWith .usual = step := by
  funext stack token
  cases token with
  | number value raw => rfl
  | operator op => exact stepWith_operator .usual stack op
  | paren side => rfl

/-- What is answered to parentheses does not matter where there are none, and what is answered to a
wrong number of operands never does. -/
theorem valueWith_eq_value {tokens : List Token} (bare : ∀ side, .paren side ∉ tokens)
    (fallback : Fallback) : valueWith fallback tokens = value tokens := by
  have agree : ∀ token ∈ tokens, ∀ stack, stepWith fallback stack token = step stack token := by
    intro token member stack
    cases token with
    | number value raw => rfl
    | operator op => exact stepWith_operator fallback stack op
    | paren side => exact absurd member (bare side)
  rw [valueWith, foldlM_congr_of_mem agree]
  rfl

/-- An operator fails for want of operands, for a zero divisor, or for a value that is not
finite. -/
theorem fault_of_step {stack : List Float} {op : Operator} {fault : Fault}
    (failed : step stack (.operator op) = .error fault) :
    (stack.length < op.arity ∧ fault = shortage op stack.length) ∨
      (∃ operation right left below, op = .binary operation ∧ stack = right :: left :: below ∧
        operation.divides = true ∧ Binary64.isZero right = true ∧ fault = .divisionByZero) ∨
      ∃ value, op.bare? stack = some value ∧ Binary64.isFinite value = false ∧
        fault = .invalidResult := by
  have unchecked : ∀ {value : Float} {below : List Float},
      (finite value).map (· :: below) = .error fault →
        Binary64.isFinite value = false ∧ fault = .invalidResult := by
    intro value below refused
    unfold finite at refused
    split at refused
    · cases refused
    · rename_i infinite
      cases refused
      exact ⟨by simpa using infinite, rfl⟩
  cases op with
  | negate =>
      cases stack with
      | nil =>
          cases failed
          exact .inl ⟨Nat.succ_pos 0, rfl⟩
      | cons operand below => exact .inr (.inr ⟨_, rfl, unchecked failed⟩)
  | binary operation =>
      match stack with
      | [] =>
          cases failed
          exact .inl ⟨Nat.succ_pos 1, rfl⟩
      | [single] =>
          cases failed
          exact .inl ⟨Nat.lt_succ_self 1, rfl⟩
      | right :: left :: below =>
          simp only [step, Arith.apply_eq] at failed
          split at failed
          · rename_i zero
            rw [Bool.and_eq_true] at zero
            cases failed
            exact .inr (.inl ⟨operation, right, left, below, rfl, rfl, zero.1, zero.2, rfl⟩)
          · exact .inr (.inr ⟨_, rfl, unchecked failed⟩)

/-- A stack that is no single value is empty or holds several. -/
theorem fault_of_single {stack : List Float} {fault : Fault} (failed : single stack = .error fault) :
    (stack = [] ∧ fault = noValue) ∨ (2 ≤ stack.length ∧ fault = unusedValues stack.length) := by
  match stack with
  | [] =>
      cases failed
      exact .inl ⟨rfl, rfl⟩
  | [value] => cases failed
  | first :: second :: others =>
      cases failed
      exact .inr ⟨by simp, rfl⟩

end Postfix

/-! ## Formulas -/

namespace Formula

/-- `Meets text stack token` says that the evaluation of a text comes to a token with this stack. -/
def Meets (text : String) (stack : List Float) (token : Token) : Prop :=
  ∃ before later, postfixed text = .ok (before ++ token :: later) ∧
    before.foldlM Postfix.step [] = .ok stack

/-- `Leaves text stack` says that the evaluation of a text gets through all its tokens and leaves
this stack. -/
def Leaves (text : String) (stack : List Float) : Prop :=
  ∃ tokens, postfixed text = .ok tokens ∧ tokens.foldlM Postfix.step [] = .ok stack

/-- Why a text has no value. -/
inductive Refuses (text : String) : Fault → Prop where
  /-- A character begins no token. -/
  | invalidCharacter {char : Char} {position : Nat}
      (unread : Token.read text = .error (.invalidCharacter char position)) :
      Refuses text (.invalidCharacter char position)
  /-- A numeral is a bare point or lies past the finite range. -/
  | invalidNumber {raw : String} {position : Nat}
      (unread : Token.read text = .error (.invalidNumber raw position)) :
      Refuses text (.invalidNumber raw position)
  /-- The parentheses do not pair up. -/
  | mismatchedParens {tokens : List Token} (read : Token.read text = .ok tokens)
      (unordered : Postfix.ofInfix tokens = .error .mismatchedParens) :
      Refuses text .mismatchedParens
  /-- An operator finds too few operands. -/
  | shortage {stack : List Float} {op : Operator} (met : Meets text stack (.operator op))
      (few : stack.length < op.arity) : Refuses text (Postfix.shortage op stack.length)
  /-- A division or a remainder finds a zero divisor. -/
  | divisionByZero {operation : Arith} {right left : Float} {below : List Float}
      (met : Meets text (right :: left :: below) (.operator (.binary operation)))
      (divides : operation.divides = true) (zero : Binary64.isZero right = true) :
      Refuses text .divisionByZero
  /-- The value of an operator is not finite. -/
  | invalidResult {stack : List Float} {op : Operator} {value : Float}
      (met : Meets text stack (.operator op)) (valued : op.bare? stack = some value)
      (infinite : Binary64.isFinite value = false) : Refuses text .invalidResult
  /-- No operator has used some of the values. -/
  | unusedValues {stack : List Float} (left : Leaves text stack) (several : 2 ≤ stack.length) :
      Refuses text (Postfix.unusedValues stack.length)
  /-- There is no value at all. -/
  | noValue (left : Leaves text []) : Refuses text Postfix.noValue

/-- All these are faults of a calculation. -/
theorem Refuses.isCalculation {text : String} {fault : Fault} (refuses : Refuses text fault) :
    fault.isCalculation = true := by
  cases refuses <;> rfl

/-- None of them is about the name of an operator. -/
theorem Refuses.ne_unknownOperator {text : String} {fault : Fault} (refuses : Refuses text fault)
    (symbol : String) : fault ≠ .unknownOperator symbol := by
  rintro rfl
  cases refuses

/-- A text whose tokens cannot be ordered is refused for a token or for its parentheses. -/
theorem refuses_of_postfixed {text : String} {fault : Fault}
    (failed : postfixed text = .error fault) : Refuses text fault := by
  unfold postfixed at failed
  cases read : Token.read text with
  | error own =>
      rw [read] at failed
      cases failed
      obtain ⟨_, _, _, _, _, unreadable⟩ := Token.read_eq_error_iff.mp read
      cases unreadable with
      | character => exact .invalidCharacter read
      | number => exact .invalidNumber read
  | ok tokens =>
      rw [read] at failed
      have parens : fault = .mismatchedParens := Postfix.ofInfix_eq_error failed
      subst parens
      exact .mismatchedParens read failed

/-- No parenthesis is left in the postfix order of a text. -/
theorem paren_not_mem_of_postfixed {text : String} {tokens : List Token}
    (ordered : postfixed text = .ok tokens) (side : Paren) : .paren side ∉ tokens := by
  obtain ⟨written, _, converted⟩ := bind_eq_ok_iff.mp ordered
  exact Postfix.paren_not_mem_of_ofInfix converted side

/-- A text whose ordered tokens have no value is refused for an operator or for what is left. -/
theorem refuses_of_evaluation {text : String} {tokens : List Token} {fault : Fault}
    (ordered : postfixed text = .ok tokens) (failed : Postfix.value tokens = .error fault) :
    Refuses text fault := by
  unfold Postfix.value at failed
  split at failed
  · rename_i own run
    cases failed
    obtain ⟨before, token, later, stack, rfl, taken, stuck⟩ := exists_of_foldlM_eq_error run
    have met : Meets text stack token := ⟨before, later, ordered, taken⟩
    cases token with
    | number value raw => cases stuck
    | paren side => exact absurd (by simp) (paren_not_mem_of_postfixed ordered side)
    | operator op =>
        rcases Postfix.fault_of_step stuck with ⟨few, rfl⟩ |
          ⟨operation, right, left, below, rfl, rfl, divides, zero, rfl⟩ |
          ⟨value, valued, infinite, rfl⟩
        · exact .shortage met few
        · exact .divisionByZero met divides zero
        · exact .invalidResult met valued infinite
  · rename_i stack run
    rcases Postfix.fault_of_single failed with ⟨rfl, rfl⟩ | ⟨several, rfl⟩
    · exact .noValue ⟨tokens, ordered, run⟩
    · exact .unusedValues ⟨tokens, ordered, run⟩ several

/-- A text without a value is refused for a cause. -/
theorem refuses_of_value {text : String} {fault : Fault} (failed : value text = .error fault) :
    Refuses text fault := by
  unfold value at failed
  cases ordered : postfixed text with
  | error own =>
      rw [ordered] at failed
      cases failed
      exact refuses_of_postfixed ordered
  | ok tokens =>
      rw [ordered] at failed
      exact refuses_of_evaluation ordered failed

/-- The value of a text, given what is answered to tokens and operands that an evaluation should
never come to. -/
def valueWith (fallback : Postfix.Fallback) (text : String) : Except Fault Float := do
  let tokens ← postfixed text
  Postfix.valueWith fallback tokens

theorem valueWith_eq_value (fallback : Postfix.Fallback) (text : String) :
    valueWith fallback text = value text := by
  unfold valueWith value
  cases ordered : postfixed text with
  | error fault => rfl
  | ok tokens => exact Postfix.valueWith_eq_value (paren_not_mem_of_postfixed ordered) fallback

/-- Every text has a finite value, which is not displayed as an error, or is refused for a cause
that is the calculation's own. No operator is unknown in it, and it does not matter what is
answered to a parenthesis or to a wrong number of operands. -/
theorem value_or_refuses (text : String) :
    ((∃ result, value text = .ok result ∧ Binary64.isFinite result = true ∧
        Decimal.display result ≠ errorText) ∨
      ∃ fault, value text = .error fault ∧ Refuses text fault ∧ fault.isCalculation = true) ∧
    (∀ symbol, value text ≠ .error (.unknownOperator symbol)) ∧
    ∀ fallback, valueWith fallback text = value text := by
  refine ⟨?_, ?_, fun fallback => valueWith_eq_value fallback text⟩
  · cases computed : value text with
    | ok result =>
        have bounded := isFinite_of_value computed
        exact .inl ⟨result, rfl, bounded, Decimal.display_ne_errorText bounded⟩
    | error fault =>
        have refuses := refuses_of_value computed
        exact .inr ⟨fault, rfl, refuses, refuses.isCalculation⟩
  · intro symbol unknown
    exact (refuses_of_value unknown).ne_unknownOperator symbol rfl

end Formula
end PanelCalc
