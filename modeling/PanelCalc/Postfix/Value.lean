import PanelCalc.Binary64.Remainder
import PanelCalc.Token

/-!
# The value of a postfix expression

Every operator takes its operands from a stack and puts its value back. The result of every step
is finite; the numbers of the expression themselves are taken as they are.
-/

namespace PanelCalc

/-- A computed value, refused unless it is finite. -/
def finite (value : Float) : Except Fault Float :=
  if Binary64.isFinite value then .ok value else .error .invalidResult

/-- The value of an operation on its left and right operand. -/
def Arith.apply (operation : Arith) (left right : Float) : Except Fault Float :=
  match operation with
  | add => finite (left + right)
  | sub => finite (left - right)
  | mul => finite (left * right)
  | div => if Binary64.isZero right then .error .divisionByZero else finite (left / right)
  | rem =>
      if Binary64.isZero right then .error .divisionByZero
      else finite (Binary64.remainder left right)

namespace Postfix

/-- An operator that finds too few operands. -/
def shortage (op : Operator) (found : Nat) : Fault :=
  .invalidExpression
    s!"operator '{op.symbol}' needs {op.arity} operand(s), found {found}"

/-- A parenthesis, which has no place in postfix order. -/
def strayParen : Fault := .invalidExpression "parenthesis in RPN"

/-- An expression without any value. -/
def noValue : Fault := .invalidExpression "empty expression"

/-- Values that no operator has used. -/
def unusedValues (count : Nat) : Fault :=
  .invalidExpression s!"{count} values left on the stack"

/-- Takes one token; the top of the stack is its first entry. -/
def step (stack : List Float) : Token → Except Fault (List Float)
  | .number value _ => .ok (value :: stack)
  | .operator .negate =>
      match stack with
      | operand :: below => (finite (-operand)).map (· :: below)
      | [] => .error (shortage .negate 0)
  | .operator (.binary operation) =>
      match stack with
      | right :: left :: below => (operation.apply left right).map (· :: below)
      | short => .error (shortage (.binary operation) short.length)
  | .paren _ => .error strayParen

/-- The value that a stack holds at the end. -/
def single : List Float → Except Fault Float
  | [value] => .ok value
  | [] => .error noValue
  | stack => .error (unusedValues stack.length)

/-- The value of tokens in postfix order. -/
def value (tokens : List Token) : Except Fault Float :=
  match tokens.foldlM step [] with
  | .error fault => .error fault
  | .ok stack => single stack

end Postfix
end PanelCalc
