import Mathlib.Algebra.Order.Field.Rat
import PanelCalc.Postfix
import PanelCalc.Postfix.Value
import PanelCalc.Proofs.Outcome

/-!
# The balance of operands and operators

Every number puts a value on the stack of operands and every binary operator takes one off, so a
row of tokens in postfix order has a value only if its numbers outnumber its binary operators by
one: `Postfix.surplusOf_of_value`. A conversion moves tokens but keeps this balance, because
`release`, `close?` and `finish?` only split what waits.
-/

namespace PanelCalc

namespace Token

/-- By how many values a token raises a stack of operands. -/
def surplus : Token → Int
  | number _ _ => 1
  | operator (.binary _) => -1
  | operator .negate | paren _ => 0

/-- By how many values a row of tokens raises a stack of operands. -/
def surplusOf (tokens : List Token) : Int := (tokens.map surplus).sum

@[simp] theorem surplusOf_nil : surplusOf [] = 0 := rfl

@[simp] theorem surplusOf_cons (token : Token) (tokens : List Token) :
    surplusOf (token :: tokens) = token.surplus + surplusOf tokens := by
  simp [surplusOf]

@[simp] theorem surplusOf_append (left right : List Token) :
    surplusOf (left ++ right) = surplusOf left + surplusOf right := by
  simp [surplusOf]

@[simp] theorem surplusOf_reverse (tokens : List Token) :
    surplusOf tokens.reverse = surplusOf tokens := by
  simp [surplusOf, List.sum_reverse]

end Token

namespace Postfix

/-- A step that succeeds raises the stack by the surplus of its token. -/
theorem length_of_step {stack next : List Float} {token : Token}
    (stepped : step stack token = .ok next) :
    (next.length : Int) = stack.length + token.surplus := by
  cases token with
  | number value raw =>
      cases stepped
      simp [Token.surplus]
  | paren side => cases stepped
  | operator op =>
      cases op with
      | negate =>
          cases stack with
          | nil => cases stepped
          | cons operand below =>
              obtain ⟨value, _, rfl⟩ := map_eq_ok_iff.mp stepped
              simp [Token.surplus]
      | binary operation =>
          match stack with
          | [] | [_] => cases stepped
          | right :: left :: below =>
              obtain ⟨value, _, rfl⟩ := map_eq_ok_iff.mp stepped
              simp only [List.length_cons, Token.surplus]
              omega

/-- Tokens that have a value in postfix order contain one number more than binary operators. -/
theorem surplusOf_of_value {tokens : List Token} {result : Float}
    (computed : value tokens = .ok result) : Token.surplusOf tokens = 1 := by
  unfold value at computed
  split at computed
  · cases computed
  · rename_i stack run
    have height : (stack.length : Int) = Token.surplusOf tokens := by
      refine foldlM_keeps (fun taken stack => (stack.length : Int) = Token.surplusOf taken) rfl
        ?_ run
      intro taken token others stack next _ height stepped
      rw [length_of_step stepped, height]
      simp
    rw [← height]
    match stack with
    | [value] => rfl
    | [] | _ :: _ :: _ => cases computed

end Postfix

/-- The surplus of what waits; a parenthesis counts for nothing. -/
def Waiting.surplus : Waiting → Int
  | operator op => (Token.operator op).surplus
  | opening => 0

namespace Conversion

/-- A release splits what waits. -/
theorem release_split (arriving : Operator) (waiting : List Waiting) :
    (release arriving waiting).1.map .operator ++ (release arriving waiting).2 = waiting := by
  fun_induction release arriving waiting with
  | case1 held below precedes released recurse => simpa using recurse
  | case2 | case3 => rfl

/-- What a closing parenthesis finds has waited above the opening one. -/
theorem close?_split {waiting below : List Waiting} {ops : List Operator}
    (closed : close? waiting = some (ops, below)) :
    waiting = ops.map .operator ++ .opening :: below := by
  induction waiting generalizing ops with
  | nil => cases closed
  | cons top rest recurse =>
      cases top with
      | opening =>
          cases closed
          rfl
      | operator held =>
          obtain ⟨⟨inner, outer⟩, found, same⟩ := Option.map_eq_some_iff.mp closed
          cases same
          rw [recurse found]
          rfl

/-- The end of the tokens is reached only if operators alone wait. -/
theorem finish?_split {waiting : List Waiting} {ops : List Operator}
    (finished : finish? waiting = some ops) : waiting = ops.map .operator := by
  induction waiting generalizing ops with
  | nil =>
      cases finished
      rfl
  | cons top rest recurse =>
      cases top with
      | opening => cases finished
      | operator held =>
          obtain ⟨inner, found, rfl⟩ := Option.map_eq_some_iff.mp finished
          rw [recurse found]
          rfl

/-- The balance of a conversion: that of all tokens it has passed on or holds back. -/
def surplus (conversion : Conversion) : Int :=
  Token.surplusOf conversion.passed + (conversion.waiting.map Waiting.surplus).sum

/-- How many parentheses are open. -/
def depth (conversion : Conversion) : Nat := conversion.waiting.count .opening

theorem surplusOf_pass (ops : List Operator) (passed : List Token) :
    Token.surplusOf (pass ops passed) =
      ((ops.map Waiting.operator).map Waiting.surplus).sum + Token.surplusOf passed := by
  simp [pass, Token.surplusOf, Waiting.surplus, List.sum_reverse, Function.comp_def]

theorem count_opening_operators (ops : List Operator) :
    (ops.map Waiting.operator).count .opening = 0 := by
  simp [List.count_eq_zero]

/-- The token that is taken where the tokens of a text have `token`: only there is known whether a
minus sign negates. -/
def reading (conversion : Conversion) : Token → Token
  | .operator op => .operator (role conversion.operandDue op)
  | other => other

/-- How many parentheses are open behind a token. -/
def depthBehind (conversion : Conversion) : Token → Nat
  | .paren .opening => conversion.depth + 1
  | .paren .closing => conversion.depth - 1
  | .number _ _ | .operator _ => conversion.depth

/-- A closing parenthesis is taken only where one is open. -/
theorem depth_pos_of_accept {before after : Conversion}
    (accepted : before.accept (.paren .closing) = .ok after) : 0 < before.depth := by
  simp only [accept] at accepted
  split at accepted
  · cases accepted
  · rename_i ops below closed
    rw [depth, close?_split closed, List.count_pos_iff]
    exact List.mem_append_right _ List.mem_cons_self

/-- Taking a token adds its surplus, and keeps count of the open parentheses. -/
theorem accept_balance {before after : Conversion} {token : Token}
    (accepted : before.accept token = .ok after) :
    after.surplus = before.surplus + (before.reading token).surplus ∧
      after.depth = before.depthBehind token := by
  match token with
  | .number value raw =>
      cases accepted
      refine ⟨?_, rfl⟩
      simp [surplus, reading]
      omega
  | .paren .opening =>
      cases accepted
      simp [surplus, reading, depth, depthBehind, Waiting.surplus, Token.surplus]
  | .paren .closing =>
      simp only [accept] at accepted
      split at accepted
      · cases accepted
      · rename_i ops below closed
        cases accepted
        simp only [surplus, depth, depthBehind, reading, close?_split closed, surplusOf_pass,
          List.map_append, List.sum_append, List.map_cons, List.sum_cons, List.count_append,
          count_opening_operators, List.count_cons_self, Waiting.surplus, Token.surplus]
        omega
  | .operator op =>
      cases accepted
      have split := release_split (role before.operandDue op) before.waiting
      generalize release (role before.operandDue op) before.waiting = released at split
      simp only [surplus, depth, depthBehind, reading, ← split, surplusOf_pass, List.map_append,
        List.sum_append, List.map_cons, List.sum_cons, List.count_append, count_opening_operators,
        Waiting.surplus]
      refine ⟨by omega, ?_⟩
      simp

/-- The result of a conversion has its balance, and nothing is left open. -/
theorem result_balance {conversion : Conversion} {tokens : List Token}
    (resulted : conversion.result = .ok tokens) :
    Token.surplusOf tokens = conversion.surplus ∧ conversion.depth = 0 := by
  simp only [result] at resulted
  split at resulted
  · cases resulted
  · rename_i ops finished
    cases resulted
    have waits := finish?_split finished
    refine ⟨?_, ?_⟩
    · rw [Token.surplusOf_reverse, surplusOf_pass, surplus, waits]
      omega
    · rw [depth, waits, count_opening_operators]

end Conversion

/-- An order is found in two stages. -/
theorem Postfix.ofInfix_eq_ok_iff {tokens ordered : List Token} :
    ofInfix tokens = .ok ordered ↔
      ∃ conversion, tokens.foldlM Conversion.accept {} = .ok conversion ∧
        conversion.result = .ok ordered := by
  unfold ofInfix
  cases tokens.foldlM Conversion.accept {} <;> simp

end PanelCalc
