import PanelCalc.Proofs.Infix.Value

/-!
# Rows of tokens as listings of trees

Every row of tokens begins with the listings of some trees, one behind the other, up to a token that
finds too few of them as its operands, a parenthesis, or the end: `exists_lists`. An evaluation
computes those trees from left to right and then stops. So the rows that have a value are the
listings of single trees without a fault, and no row is the listing of two trees:
`Postfix.value_iff_listing`.
-/

namespace PanelCalc

/-- Whether a token cannot stand behind a number of operands: a parenthesis, or an operator that
takes more of them. -/
def Token.Misplaced (operands : Nat) : Token → Prop
  | .number _ _ => False
  | .operator op => operands < op.arity
  | .paren _ => True

namespace Expression

/-- Puts a token behind the listings of trees, the latest of them first. A number is a tree of its
own, and an operator joins the latest trees into one. -/
def graft? (trees : List Expression) : Token → Option (List Expression)
  | .number value raw => some (number value raw :: trees)
  | .operator .negate =>
      match trees with
      | operand :: below => some (negate operand :: below)
      | [] => none
  | .operator (.binary operation) =>
      match trees with
      | right :: left :: below => some (binary operation left right :: below)
      | _ => none
  | .paren _ => none

/-- Only a misplaced token cannot be put behind trees. -/
theorem misplaced_of_graft? {trees : List Expression} {token : Token}
    (stuck : graft? trees token = none) : token.Misplaced trees.length := by
  match token with
  | .number value raw => cases stuck
  | .paren side => exact trivial
  | .operator .negate =>
      match trees with
      | [] => exact Nat.succ_pos 0
      | operand :: below => cases stuck
  | .operator (.binary operation) =>
      match trees with
      | [] => exact Nat.succ_pos 1
      | [single] => exact Nat.lt_succ_self 1
      | right :: left :: below => cases stuck

/-- The listings of the grown trees are those of the trees before and the token. -/
theorem postorder_graft? {trees grown : List Expression} {token : Token}
    (grafted : graft? trees token = some grown) :
    grown.reverse.flatMap postorder = trees.reverse.flatMap postorder ++ [token] := by
  cases token with
  | number value raw =>
      cases grafted
      simp [postorder]
  | paren side => cases grafted
  | operator op =>
      cases op with
      | negate =>
          rcases trees with _ | ⟨operand, below⟩
          · cases grafted
          · cases grafted
            simp [postorder]
      | binary operation =>
          rcases trees with _ | ⟨right, _ | ⟨left, below⟩⟩
          · cases grafted
          · cases grafted
          · cases grafted
            simp [postorder]

/-- A listing is put back together into its tree, whatever stands before it and behind it. -/
theorem foldlM_graft?_postorder (tree : Expression) (trees : List Expression)
    (others : List Token) :
    (tree.postorder ++ others).foldlM graft? trees = others.foldlM graft? (tree :: trees) := by
  induction tree generalizing trees others with
  | number value raw => rfl
  | negate operand recurse =>
      rw [postorder, List.append_assoc, recurse]
      rfl
  | binary operation left right recurseLeft recurseRight =>
      rw [postorder, List.append_assoc, List.append_assoc, recurseLeft, recurseRight]
      rfl

/-- No two trees have the same listing. -/
theorem postorder_injective : Function.Injective postorder := by
  intro left right same
  have leftTree := foldlM_graft?_postorder left [] []
  have rightTree := foldlM_graft?_postorder right [] []
  rw [List.append_nil] at leftTree rightTree
  rw [same, rightTree] at leftTree
  cases leftTree
  rfl

/-- `Lists tokens trees rest` says that tokens consist of the listings of trees and of a rest that
is empty or begins with a misplaced token. -/
structure Lists (tokens : List Token) (trees : List Expression) (rest : List Token) : Prop where
  whole : tokens = trees.flatMap postorder ++ rest
  stuck : ∀ token ∈ rest.head?, token.Misplaced trees.length

/-- Every row of tokens begins with the listings of trees. -/
theorem exists_lists (tokens : List Token) : ∃ trees rest, Lists tokens trees rest := by
  -- The trees put together so far are carried along, the latest of them first.
  suffices onward : ∀ taken : List Expression,
      ∃ trees rest, Lists (taken.reverse.flatMap postorder ++ tokens) trees rest from onward []
  induction tokens with
  | nil => exact fun taken => ⟨taken.reverse, [], rfl, by simp⟩
  | cons token others recurse =>
      intro taken
      cases grafted : graft? taken token with
      | none =>
          refine ⟨taken.reverse, token :: others, rfl, ?_⟩
          simpa using misplaced_of_graft? grafted
      | some grown =>
          have moved : taken.reverse.flatMap postorder ++ token :: others =
              grown.reverse.flatMap postorder ++ others := by
            rw [postorder_graft? grafted, List.append_assoc, List.singleton_append]
          rw [moved]
          exact recurse grown

/-- The first node of trees that has a fault, from left to right and in postorder. -/
def firstFaultOf? (trees : List Expression) : Option Fault :=
  (trees.flatMap nodes).findSome? ownFault?

theorem firstFaultOf?_cons (tree : Expression) (trees : List Expression) :
    firstFaultOf? (tree :: trees) = tree.firstFault?.or (firstFaultOf? trees) := by
  rw [firstFaultOf?, List.flatMap_cons, List.findSome?_append]
  rfl

/-- Evaluating the listings of trees stops at the first faulty node, and otherwise puts the values of
all trees on the stack. -/
theorem foldlM_step_listings (trees : List Expression) (stack : List Float)
    (others : List Token) :
    (trees.flatMap postorder ++ others).foldlM Postfix.step stack =
      match firstFaultOf? trees with
      | some fault => .error fault
      | none => others.foldlM Postfix.step ((trees.map bare).reverse ++ stack) := by
  induction trees generalizing stack with
  | nil => rfl
  | cons tree trees recurse =>
      rw [List.flatMap_cons, List.append_assoc, foldlM_step_postorder, value_eq_firstFault,
        firstFaultOf?_cons]
      cases tree.firstFault? with
      | some fault => rfl
      | none =>
          change (trees.flatMap postorder ++ others).foldlM Postfix.step (tree.bare :: stack) = _
          rw [recurse, List.map_cons, List.reverse_cons, List.append_assoc,
            List.singleton_append, Option.none_or]

/-- A node fails by a zero divisor or by a value that is not finite. -/
theorem arithmetic_of_ownFault? {node : Expression} {fault : Fault}
    (failed : node.ownFault? = some fault) : fault = .divisionByZero ∨ fault = .invalidResult := by
  cases node with
  | number value raw => cases failed
  | negate operand =>
      simp only [ownFault?] at failed
      split at failed
      · cases failed
      · cases failed
        exact .inr rfl
  | binary operation left right =>
      simp only [ownFault?] at failed
      split at failed
      · cases failed
        exact .inl rfl
      · split at failed
        · cases failed
        · cases failed
          exact .inr rfl

theorem arithmetic_of_firstFaultOf? {trees : List Expression} {fault : Fault}
    (failed : firstFaultOf? trees = some fault) :
    fault = .divisionByZero ∨ fault = .invalidResult := by
  obtain ⟨node, _, own⟩ := List.exists_of_findSome?_eq_some failed
  exact arithmetic_of_ownFault? own

end Expression

namespace Postfix

open Expression (Lists firstFaultOf?)

/-- A misplaced token is a fault of the expression. -/
theorem step_of_misplaced {stack : List Float} {token : Token}
    (misplaced : token.Misplaced stack.length) :
    ∃ reason, step stack token = .error (.invalidExpression reason) := by
  match token with
  | .number value raw => exact absurd misplaced id
  | .paren side => exact ⟨_, rfl⟩
  | .operator .negate =>
      match stack with
      | [] => exact ⟨_, rfl⟩
      | operand :: below => simp [Token.Misplaced, Operator.arity] at misplaced
  | .operator (.binary operation) =>
      match stack with
      | [] | [_] => exact ⟨_, rfl⟩
      | right :: left :: below =>
          simp only [Token.Misplaced, Operator.arity, List.length_cons] at misplaced
          omega

/-- A stack that does not hold a single value is a fault of the expression. -/
theorem single_of_length_ne_one {stack : List Float} (several : stack.length ≠ 1) :
    ∃ reason, single stack = .error (.invalidExpression reason) := by
  match stack with
  | [] | _ :: _ :: _ => exact ⟨_, rfl⟩
  | [value] => exact absurd rfl several

variable {tokens rest : List Token} {trees : List Expression}

/-- The first faulty node of the trees that tokens begin with gives the fault. -/
theorem value_of_faulty (lists : Lists tokens trees rest) {fault : Fault}
    (failed : firstFaultOf? trees = some fault) : value tokens = .error fault := by
  rw [value, lists.whole, Expression.foldlM_step_listings, failed]

/-- Without a faulty node, anything but the listing of a single tree is a fault of the expression. -/
theorem value_of_unlisted (lists : Lists tokens trees rest) (sound : firstFaultOf? trees = none)
    (unlisted : ∀ tree : Expression, tree.postorder ≠ tokens) :
    ∃ reason, value tokens = .error (.invalidExpression reason) := by
  have run := Expression.foldlM_step_listings trees [] rest
  rw [sound, ← lists.whole, List.append_nil] at run
  have height : (trees.map Expression.bare).reverse.length = trees.length := by simp
  rw [value, run]
  cases behind : rest with
  | nil =>
      have several : (trees.map Expression.bare).reverse.length ≠ 1 := by
        rw [height]
        intro one
        obtain ⟨tree, rfl⟩ := List.length_eq_one_iff.mp one
        apply unlisted tree
        rw [lists.whole, behind]
        simp
      exact single_of_length_ne_one several
  | cons token others =>
      have misplaced := lists.stuck token (by simp [behind])
      rw [← height] at misplaced
      obtain ⟨reason, stuck⟩ := step_of_misplaced misplaced
      rw [List.foldlM_cons, stuck]
      exact ⟨reason, rfl⟩

/-- Whatever is not the listing of a tree is refused. -/
theorem refused_of_unlisted (unlisted : ∀ tree : Expression, tree.postorder ≠ tokens) :
    ∃ fault, value tokens = .error fault := by
  obtain ⟨trees, rest, lists⟩ := Expression.exists_lists tokens
  cases failed : firstFaultOf? trees with
  | some fault => exact ⟨fault, value_of_faulty lists failed⟩
  | none =>
      obtain ⟨reason, invalid⟩ := value_of_unlisted lists failed unlisted
      exact ⟨_, invalid⟩

/-- Tokens have a value just when they are the listing of a tree, of which there is no more than
one, and that tree has this value. If the tree has none, its first faulty node in postorder gives
the fault. All other tokens are refused: by the first faulty node of the trees whose listings stand
before the first misplaced token or the end, and without such a node as an invalid expression. -/
theorem value_iff_listing (tokens : List Token) :
    (∀ result, value tokens = .ok result ↔
      ∃ tree : Expression, (∀ other : Expression, other.postorder = tokens ↔ other = tree) ∧
        tree.value = .ok result) ∧
    (∀ (tree : Expression) (fault : Fault), tree.postorder = tokens →
      tree.nodes.findSome? Expression.ownFault? = some fault → value tokens = .error fault) ∧
    ((∀ tree : Expression, tree.postorder ≠ tokens) →
      (∃ trees rest, Lists tokens trees rest) ∧
      ∀ trees rest, Lists tokens trees rest →
        (∀ fault, (trees.flatMap Expression.nodes).findSome? Expression.ownFault? = some fault →
          (fault = .divisionByZero ∨ fault = .invalidResult) ∧ value tokens = .error fault) ∧
        ((trees.flatMap Expression.nodes).findSome? Expression.ownFault? = none →
          ∃ reason, value tokens = .error (.invalidExpression reason))) := by
  refine ⟨fun result => ⟨fun computed => ?_, ?_⟩, ?_, fun unlisted => ?_⟩
  · by_cases listed : ∃ tree : Expression, tree.postorder = tokens
    · obtain ⟨tree, rfl⟩ := listed
      refine ⟨tree, fun other => Expression.postorder_injective.eq_iff, ?_⟩
      rw [← value_postorder, computed]
    · obtain ⟨fault, refused⟩ := refused_of_unlisted (not_exists.mp listed)
      rw [refused] at computed
      cases computed
  · rintro ⟨tree, only, computed⟩
    rw [← (only tree).mpr rfl, value_postorder, computed]
  · rintro tree fault rfl failed
    have first : tree.firstFault? = some fault := failed
    rw [value_postorder, Expression.value_eq_firstFault, first]
  · refine ⟨Expression.exists_lists tokens, fun trees rest lists => ⟨fun fault failed => ?_, ?_⟩⟩
    · exact ⟨Expression.arithmetic_of_firstFaultOf? failed, value_of_faulty lists failed⟩
    · exact fun sound => value_of_unlisted lists sound unlisted

/-- A division by zero is found before a parenthesis behind it, and not found behind one. -/
example :
    value [.number 1 "1", .number 0 "0", .operator (.binary .div), .paren .closing] =
        .error .divisionByZero ∧
      value [.paren .closing, .number 1 "1", .number 0 "0", .operator (.binary .div)] =
        .error strayParen := by
  decide +kernel

end Postfix
end PanelCalc
