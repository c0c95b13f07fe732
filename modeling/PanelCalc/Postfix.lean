import PanelCalc.Token

/-!
# Postfix order

Rearranges tokens so that every operator follows its operands and no parenthesis is left. The
tokens are taken one by one: numbers are passed on at once, operators and opening parentheses wait
until what follows decides about them.
-/

namespace PanelCalc

/-- What waits for a later token. -/
inductive Waiting where
  | operator (op : Operator)
  | opening
  deriving DecidableEq, Repr

/-- A conversion under way. -/
structure Conversion where
  /-- The tokens passed on so far, the latest first. -/
  passed : List Token := []
  /-- What waits, the latest first. -/
  waiting : List Waiting := []
  /-- Whether an operand is due: at the start, behind an operator and behind an opening
  parenthesis. A minus sign that stands there negates. -/
  operandDue : Bool := true
  deriving DecidableEq

namespace Conversion

/-- Whether a waiting operator is applied before one that arrives behind its right operand. -/
def precedes (held arriving : Operator) : Bool :=
  if arriving.isRightAssociative then arriving.precedence < held.precedence
  else arriving.precedence ≤ held.precedence

/-- Splits off the waiting operators that are applied before an arriving one. -/
def release (arriving : Operator) : List Waiting → List Operator × List Waiting
  | .operator held :: below =>
      if precedes held arriving then
        let released := release arriving below
        (held :: released.1, released.2)
      else ([], .operator held :: below)
  | waiting => ([], waiting)

/-- Splits off the operators that wait inside the innermost open parenthesis, and the parenthesis
with them; `none` if there is none. -/
def close? : List Waiting → Option (List Operator × List Waiting)
  | [] => none
  | .opening :: below => some ([], below)
  | .operator held :: below =>
      (close? below).map fun closed => (held :: closed.1, closed.2)

/-- The operators that wait at the end; `none` if a parenthesis is still open. -/
def finish? : List Waiting → Option (List Operator)
  | [] => some []
  | .opening :: _ => none
  | .operator held :: below => (finish? below).map (held :: ·)

/-- Passes operators on, the first of the list first. -/
def pass (ops : List Operator) (passed : List Token) : List Token :=
  (ops.map Token.operator).reverse ++ passed

/-- The operator that a token stands for where an operand is due or not. -/
def role (operandDue : Bool) (op : Operator) : Operator :=
  if operandDue && op = .binary .sub then .negate else op

/-- Takes the next token. -/
def accept (conversion : Conversion) : Token → Except Fault Conversion
  | .number value raw =>
      .ok { conversion with
        passed := .number value raw :: conversion.passed, operandDue := false }
  | .paren .opening =>
      .ok { conversion with waiting := .opening :: conversion.waiting, operandDue := true }
  | .paren .closing =>
      match close? conversion.waiting with
      | none => .error .mismatchedParens
      | some (ops, below) =>
          .ok { passed := pass ops conversion.passed, waiting := below, operandDue := false }
  | .operator op =>
      let arriving := role conversion.operandDue op
      let released := release arriving conversion.waiting
      .ok
        { passed := pass released.1 conversion.passed
          waiting := .operator arriving :: released.2
          operandDue := true }

/-- The tokens in postfix order once all have been taken. -/
def result (conversion : Conversion) : Except Fault (List Token) :=
  match finish? conversion.waiting with
  | none => .error .mismatchedParens
  | some ops => .ok (pass ops conversion.passed).reverse

end Conversion

/-- The tokens of an expression in postfix order. Only parentheses that do not pair up are refused;
whether every operator has its operands shows when the value is computed. -/
def Postfix.ofInfix (tokens : List Token) : Except Fault (List Token) :=
  match tokens.foldlM Conversion.accept {} with
  | .error fault => .error fault
  | .ok conversion => conversion.result

end PanelCalc
