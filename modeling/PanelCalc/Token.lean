import PanelCalc.Fault

/-!
# Tokens

The symbols of which an expression is made. A minus sign is read as a subtraction; whether it
negates is decided when the tokens are ordered.
-/

namespace PanelCalc

/-- The arithmetic operations on two operands. -/
inductive Arith where
  | add
  | sub
  | mul
  | div
  | rem
  deriving DecidableEq, Repr

/-- The operators of an expression. -/
inductive Operator where
  | binary (operation : Arith)
  | negate
  deriving DecidableEq, Repr

/-- The two sides of a pair of parentheses. -/
inductive Paren where
  | opening
  | closing
  deriving DecidableEq, Repr

/-- A token of an expression. A number keeps the text it was read from. -/
inductive Token where
  | number (value : Float) (raw : String)
  | operator (op : Operator)
  | paren (side : Paren)
  deriving DecidableEq

/-- The character of an arithmetic operation. -/
def Arith.symbol : Arith → Char
  | add => '+'
  | sub => '-'
  | mul => '*'
  | div => '/'
  | rem => '%'

/-- The arithmetic operation written by a character. -/
def Arith.ofChar? : Char → Option Arith
  | '+' => some add
  | '-' => some sub
  | '*' => some mul
  | '/' => some div
  | '%' => some rem
  | _ => none

theorem Arith.ofChar?_symbol (operation : Arith) : ofChar? operation.symbol = some operation := by
  cases operation <;> rfl

/-- Only its own symbol writes an operation. -/
theorem Arith.ofChar?_eq_some_iff {char : Char} {operation : Arith} :
    ofChar? char = some operation ↔ char = operation.symbol := by
  constructor
  · intro read
    unfold ofChar? at read
    split at read <;> simp_all <;> subst read <;> rfl
  · rintro rfl
    exact ofChar?_symbol operation

namespace Operator

/-- How tightly an operator binds. -/
def precedence : Operator → Nat
  | negate => 3
  | binary .mul | binary .div | binary .rem => 2
  | binary .add | binary .sub => 1

/-- Whether of two equal operators the right one is applied first. -/
def isRightAssociative : Operator → Bool
  | negate => true
  | binary _ => false

/-- How many operands an operator takes. -/
def arity : Operator → Nat
  | negate => 1
  | binary _ => 2

/-- Whether an operator takes a single operand. -/
def isUnary (op : Operator) : Bool := op.arity == 1

/-- The name of an operator in a listing of tokens. -/
def symbol : Operator → String
  | negate => "neg"
  | binary operation => operation.symbol.toString

/-- The operator written by a character; a minus sign subtracts. -/
def ofChar? (char : Char) : Option Operator := (Arith.ofChar? char).map binary

/-- The operator written by a character, or the fault that names it. -/
def ofChar (char : Char) : Except Fault Operator :=
  match ofChar? char with
  | some op => .ok op
  | none => .error (.unknownOperator char.toString)

/-- The operator with a given name: a single operation sign, or either name of negation. -/
def ofName (name : String) : Except Fault Operator :=
  if name = "neg" || name = "u-" then .ok negate
  else
    match name.toList with
    | [char] => ofChar char
    | _ => .error (.unknownOperator name)

end Operator

namespace Token

/-- The text of a token: a number as it was read, otherwise its symbol. -/
def text : Token → String
  | number _ raw => raw
  | operator op => op.symbol
  | paren .opening => "("
  | paren .closing => ")"

/-- A listing of tokens, one blank between two of them. -/
def listing (tokens : List Token) : String := " ".intercalate (tokens.map text)

end Token
end PanelCalc
