import PanelCalc.Postfix.Value

/-!
# Expression trees

The shape of an expression once operators have found their operands. `Postfix.value` of the
postorder listing of a tree is the value of the tree, in front of any further tokens:
`foldlM_step_postorder`.
-/

namespace PanelCalc

/-- An arithmetic expression. -/
inductive Expression where
  | number (value : Float) (raw : String)
  | negate (operand : Expression)
  | binary (operation : Arith) (left right : Expression)
  deriving DecidableEq

namespace Expression

/-- The tokens of a tree, every operator behind its operands. -/
def postorder : Expression → List Token
  | number value raw => [.number value raw]
  | negate operand => operand.postorder ++ [.operator .negate]
  | binary operation left right =>
      left.postorder ++ right.postorder ++ [.operator (.binary operation)]

/-- The value of a tree, computed from its leaves up and from left to right. The first node that
fails gives the fault. -/
def value : Expression → Except Fault Float
  | number value _ => .ok value
  | negate operand => do
      let value ← operand.value
      finite (-value)
  | binary operation left right => do
      let leftValue ← left.value
      let rightValue ← right.value
      operation.apply leftValue rightValue

/-- Evaluating the listing of a tree puts its value on the stack, whatever the stack held before
and whatever follows. -/
theorem foldlM_step_postorder (tree : Expression) (stack : List Float) (others : List Token) :
    (tree.postorder ++ others).foldlM Postfix.step stack =
      tree.value >>= fun value => others.foldlM Postfix.step (value :: stack) := by
  induction tree generalizing stack others with
  | number value raw => rfl
  | negate operand recurse =>
      simp only [postorder, List.append_assoc, recurse, value]
      cases operand.value with
      | error fault => rfl
      | ok given =>
          change (finite (-given)).map (· :: stack) >>= _ = finite (-given) >>= _
          cases finite (-given) <;> rfl
  | binary operation left right recurseLeft recurseRight =>
      simp only [postorder, List.append_assoc, recurseLeft, recurseRight, value]
      cases left.value with
      | error fault => rfl
      | ok leftValue =>
          cases right.value with
          | error fault => rfl
          | ok rightValue =>
              change (operation.apply leftValue rightValue).map (· :: stack) >>= _ =
                operation.apply leftValue rightValue >>= _
              cases operation.apply leftValue rightValue <;> rfl

end Expression
end PanelCalc
