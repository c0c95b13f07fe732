import PanelCalc.Formula
import PanelCalc.Proofs.Infix.Conversion
import PanelCalc.Proofs.Infix.Reading

/-!
# Values of well-formed formulas

A text that spells an expression of the grammar has the value of the expression's tree, and its
postfix order is the tree's postorder listing: `Formula.postfixed_and_value_of_spelled`. Which
value or fault that is, `Expression.value_eq_firstFault` says without running anything: `bare` is
the plain binary64 value of a tree, `ownFault?` what is wrong with a node by itself, and the first
such fault in postorder wins.
-/

namespace PanelCalc

/-- Whether an operation divides by its right operand. -/
def Arith.divides : Arith → Bool
  | div | rem => true
  | add | sub | mul => false

/-- The binary64 result of an operation, finite or not. -/
def Arith.bare : Arith → Float → Float → Float
  | add, left, right => left + right
  | sub, left, right => left - right
  | mul, left, right => left * right
  | div, left, right => left / right
  | rem, left, right => Binary64.remainder left right

/-- An operation refuses a zero divisor first and a result that is not finite second. -/
theorem Arith.apply_eq (operation : Arith) (left right : Float) :
    operation.apply left right =
      if operation.divides && Binary64.isZero right then .error .divisionByZero
      else finite (operation.bare left right) := by
  cases operation <;> simp [apply, divides, bare]

namespace Expression

/-- The value of a tree in binary64 arithmetic, finite or not. -/
def bare : Expression → Float
  | number value _ => value
  | negate operand => -operand.bare
  | binary operation left right => operation.bare left.bare right.bare

/-- The nodes of a tree in postorder. -/
def nodes : Expression → List Expression
  | number value raw => [.number value raw]
  | negate operand => operand.nodes ++ [.negate operand]
  | binary operation left right => left.nodes ++ right.nodes ++ [.binary operation left right]

/-- What is wrong with a node itself, given the values of its operands: a zero divisor, or else a
value that is not finite. -/
def ownFault? : Expression → Option Fault
  | number _ _ => none
  | negate operand => if Binary64.isFinite (-operand.bare) then none else some .invalidResult
  | binary operation left right =>
      if operation.divides && Binary64.isZero right.bare then some .divisionByZero
      else if Binary64.isFinite (operation.bare left.bare right.bare) then none
      else some .invalidResult

/-- The fault of the first node in postorder that has one. -/
def firstFault? (tree : Expression) : Option Fault := tree.nodes.findSome? ownFault?

theorem firstFault?_negate (operand : Expression) :
    (negate operand).firstFault? = operand.firstFault?.or (negate operand).ownFault? := by
  rw [firstFault?, nodes, List.findSome?_append, List.findSome?_singleton]
  rfl

theorem firstFault?_binary (operation : Arith) (left right : Expression) :
    (binary operation left right).firstFault? =
      (left.firstFault?.or right.firstFault?).or (binary operation left right).ownFault? := by
  rw [firstFault?, nodes, List.findSome?_append, List.findSome?_append, List.findSome?_singleton]
  rfl

/-- A tree has the fault of its first faulty node in postorder, and without any its binary64
value. -/
theorem value_eq_firstFault (tree : Expression) :
    tree.value =
      match tree.firstFault? with
      | some fault => .error fault
      | none => .ok tree.bare := by
  induction tree with
  | number value raw => rfl
  | negate operand recurse =>
      rw [firstFault?_negate, value, recurse]
      cases operand.firstFault? with
      | some fault => rfl
      | none =>
          change finite (-operand.bare) = _
          simp only [Option.none_or, ownFault?, finite, bare]
          split <;> rfl
  | binary operation left right recurseLeft recurseRight =>
      rw [firstFault?_binary, value, recurseLeft, recurseRight]
      cases left.firstFault? with
      | some fault => rfl
      | none =>
          cases right.firstFault? with
          | some fault => rfl
          | none =>
              change operation.apply left.bare right.bare = _
              simp only [Option.none_or, ownFault?, Arith.apply_eq, finite, bare]
              split
              · rfl
              · split <;> rfl

end Expression

/-- The value of a listing is that of the listed tree. -/
theorem Postfix.value_postorder (tree : Expression) :
    Postfix.value tree.postorder = tree.value := by
  have run := tree.foldlM_step_postorder [] []
  rw [List.append_nil] at run
  rw [value, run]
  cases tree.value <;> rfl

namespace Formula

/-- A text that spells an expression has the tree's listing as its postfix order. -/
theorem postfixed_of_spelled {text : String} {tokens : List Token} {tree : Expression}
    (derived : Expression.Derives .sum tokens tree)
    (spelled : Token.Spelled tokens text.toList) : postfixed text = .ok tree.postorder := by
  rw [postfixed, Token.read_of_spelled spelled derived.separated]
  exact Postfix.ofInfix_of_derives derived

/-- A text that spells an expression has the tree's value. -/
theorem value_of_spelled {text : String} {tokens : List Token} {tree : Expression}
    (derived : Expression.Derives .sum tokens tree)
    (spelled : Token.Spelled tokens text.toList) : value text = tree.value := by
  rw [value, postfixed_of_spelled derived spelled]
  exact Postfix.value_postorder tree

/-- Every text that spells an expression, however it is spaced and parenthesised, is put into the
postorder of its tree and has the tree's value: the fault of the first faulty node in postorder,
and the binary64 value if there is none. -/
theorem postfixed_and_value_of_spelled {text : String} {tokens : List Token} {tree : Expression}
    (derived : Expression.Derives .sum tokens tree)
    (spelled : Token.Spelled tokens text.toList) :
    postfixed text = .ok tree.postorder ∧ value text = tree.value ∧
      value text =
        match tree.nodes.findSome? Expression.ownFault? with
        | some fault => .error fault
        | none => .ok tree.bare := by
  have valued := value_of_spelled derived spelled
  refine ⟨postfixed_of_spelled derived spelled, valued, ?_⟩
  rw [valued]
  exact tree.value_eq_firstFault

/-- A product with gaps in it and a negated group as its right factor. -/
theorem postfixed_and_value_of_spaced_product :
    postfixed "2 *-(3)\t" =
        .ok [.number 2 "2", .number 3 "3", .operator .negate, .operator (.binary .mul)] ∧
      value "2 *-(3)\t" = .ok (-6) := by
  have two : (Token.number 2 "2").IsWritten := ⟨by decide, by decide +kernel⟩
  have three : (Token.number 3 "3").IsWritten := ⟨by decide, by decide +kernel⟩
  have gap : Token.Spelled [] ['\t'] := .finished (by simp [Token.isGap])
  have group : Token.Spelled [.paren .opening, .number 3 "3", .paren .closing] "(3)\t".toList :=
    @Token.Spelled.token [] _ _ _ (by simp) trivial
      (@Token.Spelled.token [] _ _ _ (by simp) three
        (@Token.Spelled.token [] _ _ _ (by simp) trivial gap))
  have spelled :
      Token.Spelled
        [.number 2 "2", .operator (.binary .mul), .operator (.binary .sub), .paren .opening,
          .number 3 "3", .paren .closing]
        "2 *-(3)\t".toList :=
    @Token.Spelled.token [] _ _ _ (by simp) two
      (@Token.Spelled.token [' '] _ _ _ (by simp [Token.isGap]) (by simp [Token.IsWritten])
        (@Token.Spelled.token [] _ _ _ (by simp) (by simp [Token.IsWritten]) group))
  have behind := Expression.Derives.negate (.group (.term (.factor (.number 3 "3"))))
  have derived := Expression.Derives.term
    (@Expression.Derives.product _ _ _ _ .mul rfl (.factor (.number 2 "2")) behind)
  obtain ⟨ordered, valued, _⟩ := postfixed_and_value_of_spelled derived spelled
  exact ⟨ordered, valued.trans (by decide +kernel)⟩

end Formula
end PanelCalc
