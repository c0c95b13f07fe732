import PanelCalc.Expression
import PanelCalc.Token.Lexer

/-!
# The grammar of expressions

Which texts are expressions, and which tree each of them has. `Derives` relates tokens to trees:
sums of products of factors, each level grouping to the left. `Spelled` relates tokens to the texts
that consist of them and of gaps between them.
-/

namespace PanelCalc

namespace Expression

/-- The levels of the grammar, from the loosest to the tightest. -/
inductive Level where
  | sum
  | product
  | factor
  deriving DecidableEq, Repr

/-- The level at which an operation joins its operands. -/
def Level.ofArith : Arith → Level
  | .add | .sub => sum
  | .mul | .div | .rem => product

/-- `Derives level tokens tree` says that tokens, as they stand in a text, form an expression of a
level with a given tree. -/
inductive Derives : Level → List Token → Expression → Prop where
  | number (value : Float) (raw : String) :
      Derives .factor [.number value raw] (.number value raw)
  | group {tokens : List Token} {tree : Expression} (inside : Derives .sum tokens tree) :
      Derives .factor (.paren .opening :: tokens ++ [.paren .closing]) tree
  | negate {tokens : List Token} {tree : Expression} (operand : Derives .factor tokens tree) :
      Derives .factor (.operator (.binary .sub) :: tokens) (.negate tree)
  | factor {tokens : List Token} {tree : Expression} (single : Derives .factor tokens tree) :
      Derives .product tokens tree
  | product {left right : List Token} {leftTree rightTree : Expression} {operation : Arith}
      (level : Level.ofArith operation = .product)
      (before : Derives .product left leftTree) (behind : Derives .factor right rightTree) :
      Derives .product (left ++ .operator (.binary operation) :: right)
        (.binary operation leftTree rightTree)
  | term {tokens : List Token} {tree : Expression} (single : Derives .product tokens tree) :
      Derives .sum tokens tree
  | sum {left right : List Token} {leftTree rightTree : Expression} {operation : Arith}
      (level : Level.ofArith operation = .sum)
      (before : Derives .sum left leftTree) (behind : Derives .product right rightTree) :
      Derives .sum (left ++ .operator (.binary operation) :: right)
        (.binary operation leftTree rightTree)

end Expression

namespace Token

/-- Whether a token can stand in a text: a numeral with the value it reads as, an operation sign or
a parenthesis. -/
def IsWritten : Token → Prop
  | number value raw =>
      splitNumeral false raw.toList = (raw.toList, []) ∧ Decimal.read? raw.toList = some value
  | operator op => op ≠ .negate
  | paren _ => True

/-- `Spelled tokens text` says that a text consists of tokens with gaps around them. -/
inductive Spelled : List Token → List Char → Prop where
  | finished {gap : List Char} (blank : ∀ char ∈ gap, isGap char = true) : Spelled [] gap
  | token {gap : List Char} {token : Token} {others : List Token} {rest : List Char}
      (blank : ∀ char ∈ gap, isGap char = true) (written : token.IsWritten)
      (spelled : Spelled others rest) :
      Spelled (token :: others) (gap ++ token.text.toList ++ rest)

end Token
end PanelCalc
