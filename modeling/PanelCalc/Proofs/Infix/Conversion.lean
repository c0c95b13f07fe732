import PanelCalc.Expression.Grammar
import PanelCalc.Postfix
import PanelCalc.Proofs.Outcome

/-!
# Conversion of grammatical tokens

`foldlM_accept_of_derives` follows a conversion through the tokens of an expression. Afterwards the
postorder listing of the tree has been passed on, except for operators that still wait above
everything that waited before. Those bind at least as tightly as the level of the expression, so
whatever may follow at that level releases exactly them: `Conversion.Took` is this invariant.
-/

namespace PanelCalc

/-- The precedence of the operators that join operands at a level. -/
def Expression.Level.precedence : Expression.Level → Nat
  | sum => 1
  | product => 2
  | factor => 3

namespace Conversion

open Expression (Level Derives)

/-- A binary operator has the precedence of the level at which it joins its operands. -/
theorem precedence_binary (operation : Arith) :
    (Operator.binary operation).precedence = (Level.ofArith operation).precedence := by
  cases operation <;> rfl

/-- Waiting operators of at least the arriving precedence are released, all of them, and then what
is released below. -/
theorem release_append {operation : Arith} (held : List Operator)
    (tight : ∀ op ∈ held, (Operator.binary operation).precedence ≤ op.precedence)
    (below : List Waiting) :
    release (.binary operation) (held.map .operator ++ below) =
      (held ++ (release (.binary operation) below).1, (release (.binary operation) below).2) := by
  induction held with
  | nil => rfl
  | cons op others recurse =>
      have first : precedes op (.binary operation) = true := by
        simpa [precedes, Operator.isRightAssociative] using tight op (by simp)
      have rest := recurse fun other member => tight other (by simp [member])
      simp [release, first, rest]

/-- A negation releases nothing: no operator binds more tightly. -/
theorem release_negate (waiting : List Waiting) : release .negate waiting = ([], waiting) := by
  cases waiting with
  | nil => rfl
  | cons top below =>
      cases top with
      | opening => rfl
      | operator held =>
          have loose : precedes held .negate = false := by
            rcases held with ⟨_ | _ | _ | _ | _⟩ | _ <;> rfl
          simp [release, loose]

/-- A closing parenthesis finds the latest operators, and then what it finds below. -/
theorem close?_map_append (held : List Operator) (below : List Waiting) :
    close? (held.map .operator ++ below) =
      (close? below).map fun closed => (held ++ closed.1, closed.2) := by
  induction held with
  | nil => simp
  | cons op others recurse =>
      simp only [List.map_cons, List.cons_append, close?, recurse, Option.map_map]
      rfl

/-- A closing parenthesis finds the operators that wait inside of its opening one. -/
theorem close?_append (held : List Operator) (below : List Waiting) :
    close? (held.map .operator ++ .opening :: below) = some (held, below) := by
  simp [close?_map_append, close?]

/-- The end of the tokens finds the latest operators, and then what it finds below. -/
theorem finish?_map_append (held : List Operator) (below : List Waiting) :
    finish? (held.map .operator ++ below) = (finish? below).map (held ++ ·) := by
  induction held with
  | nil => simp
  | cons op others recurse =>
      simp only [List.map_cons, List.cons_append, finish?, recurse, Option.map_map]
      rfl

/-- The end of the tokens finds all operators that wait outside of parentheses. -/
theorem finish?_map (held : List Operator) : finish? (held.map .operator) = some held := by
  simpa [finish?] using finish?_map_append held []

theorem pass_append (held others : List Operator) (passed : List Token) :
    pass (held ++ others) passed = pass others (pass held passed) := by
  simp [pass]

/-- Whether everything that waits keeps waiting when a binary operator of a level, or of a tighter
one, arrives. -/
def Settled (level : Level) (waiting : List Waiting) : Prop :=
  ∀ operation, level.precedence ≤ (Level.ofArith operation).precedence →
    release (.binary operation) waiting = ([], waiting)

/-- Nothing arrives at the tightest level. -/
theorem settled_factor (waiting : List Waiting) : Settled .factor waiting := by
  intro operation arrives
  cases operation <;> simp [Level.precedence, Level.ofArith] at arrives

theorem Settled.tighten {level tighter : Level} {waiting : List Waiting}
    (settled : Settled level waiting) (ordered : level.precedence ≤ tighter.precedence) :
    Settled tighter waiting :=
  fun operation arrives => settled operation (Nat.le_trans ordered arrives)

theorem settled_nil (level : Level) : Settled level [] := fun _ _ => rfl

theorem settled_opening (level : Level) (below : List Waiting) :
    Settled level (.opening :: below) := fun _ _ => rfl

/-- A waiting operator keeps waiting for its right operand, which is of a tighter level. -/
theorem settled_operator {level : Level} {operation : Arith} (below : List Waiting)
    (looser : (Level.ofArith operation).precedence < level.precedence) :
    Settled level (.operator (.binary operation) :: below) := by
  intro arriving arrives
  have loose : precedes (.binary operation) (.binary arriving) = false := by
    simp [precedes, Operator.isRightAssociative, precedence_binary]
    omega
  simp [release, loose]

/-- `Took level tree before after` says that a conversion has taken an expression of a level with
a given tree: apart from operators of at least the precedence of the level, which wait, the tree's
listing has been passed on. -/
def Took (level : Level) (tree : Expression) (before after : Conversion) : Prop :=
  ∃ held : List Operator,
    after.waiting = held.map .operator ++ before.waiting ∧
    pass held after.passed = tree.postorder.reverse ++ before.passed ∧
    after.operandDue = false ∧
    ∀ op ∈ held, level.precedence ≤ op.precedence

/-- An expression of a tighter level is one of a looser level too. -/
theorem Took.loosen {level looser : Level} {tree : Expression} {before after : Conversion}
    (took : Took level tree before after) (ordered : looser.precedence ≤ level.precedence) :
    Took looser tree before after := by
  obtain ⟨held, waiting, passed, due, tight⟩ := took
  exact ⟨held, waiting, passed, due, fun op member => Nat.le_trans ordered (tight op member)⟩

/-- An operator behind a left operand releases what the operand has left waiting. -/
theorem Took.accept_operator {level : Level} {operation : Arith} {tree : Expression}
    {before after : Conversion} (took : Took level tree before after)
    (joins : Level.ofArith operation = level) (settled : Settled level before.waiting) :
    after.accept (.operator (.binary operation)) =
      .ok
        { passed := tree.postorder.reverse ++ before.passed
          waiting := .operator (.binary operation) :: before.waiting
          operandDue := true } := by
  obtain ⟨held, waiting, passed, due, tight⟩ := took
  have binary : role after.operandDue (.binary operation) = .binary operation := by
    simp [role, due]
  have tightly : ∀ op ∈ held, (Operator.binary operation).precedence ≤ op.precedence := by
    intro op member
    rw [precedence_binary, joins]
    exact tight op member
  have released : release (.binary operation) after.waiting = (held, before.waiting) := by
    have stops := settled operation (Nat.le_of_eq (congrArg Level.precedence joins.symm))
    rw [waiting, release_append held tightly, stops, List.append_nil]
  simp only [accept, binary, released, passed]

/-- Behind its right operand, an operator waits below what that operand has left waiting. -/
theorem Took.binary {level right : Level} {operation : Arith} {leftTree rightTree : Expression}
    {before middle after : Conversion} (joins : Level.ofArith operation = level)
    (tighter : level.precedence ≤ right.precedence)
    (passed : middle.passed = leftTree.postorder.reverse ++ before.passed)
    (waiting : middle.waiting = .operator (.binary operation) :: before.waiting)
    (took : Took right rightTree middle after) :
    Took level (.binary operation leftTree rightTree) before after := by
  obtain ⟨held, waitingAfter, passedAfter, due, tight⟩ := took
  refine ⟨held ++ [.binary operation], ?_, ?_, due, ?_⟩
  · simp [waitingAfter, waiting]
  · rw [pass_append, passedAfter, passed]
    simp [pass, Expression.postorder]
  · intro op member
    rcases List.mem_append.mp member with inside | last
    · exact Nat.le_trans tighter (tight op inside)
    · rw [List.mem_singleton.mp last, precedence_binary]
      exact Nat.le_of_eq (congrArg Level.precedence joins.symm)

/-- Two operands joined by an operator, given how each of them is taken. -/
theorem foldlM_accept_binary {level right : Level} {operation : Arith} {left behind : List Token}
    {leftTree rightTree : Expression} {before middle : Conversion}
    (joins : Level.ofArith operation = level) (tighter : level.precedence < right.precedence)
    (settled : Settled level before.waiting)
    (takenLeft : left.foldlM accept before = .ok middle)
    (tookLeft : Took level leftTree before middle)
    (takeRight : ∀ next : Conversion, next.operandDue = true → Settled right next.waiting →
      ∃ after, behind.foldlM accept next = .ok after ∧ Took right rightTree next after) :
    ∃ after, (left ++ .operator (.binary operation) :: behind).foldlM accept before = .ok after ∧
      Took level (.binary operation leftTree rightTree) before after := by
  let next : Conversion :=
    { passed := leftTree.postorder.reverse ++ before.passed
      waiting := .operator (.binary operation) :: before.waiting
      operandDue := true }
  have reached : middle.accept (.operator (.binary operation)) = .ok next :=
    tookLeft.accept_operator joins settled
  have waits : Settled right next.waiting :=
    settled_operator before.waiting (by rw [joins]; exact tighter)
  obtain ⟨after, takenRight, tookRight⟩ := takeRight next rfl waits
  refine ⟨after, ?_, Took.binary joins (Nat.le_of_lt tighter) rfl rfl tookRight⟩
  rw [foldlM_append_of_ok _ takenLeft, List.foldlM_cons, reached]
  exact takenRight

/-- Taking the tokens of an expression never fails where an operand is due, and passes its tree
on. -/
theorem foldlM_accept_of_derives {level : Level} {tokens : List Token} {tree : Expression}
    (derived : Derives level tokens tree) (before : Conversion)
    (due : before.operandDue = true) (settled : Settled level before.waiting) :
    ∃ after, tokens.foldlM accept before = .ok after ∧ Took level tree before after := by
  induction derived generalizing before with
  | number value raw =>
      exact ⟨⟨.number value raw :: before.passed, before.waiting, false⟩, rfl, [], rfl, rfl, rfl,
        by simp⟩
  | @group tokens tree inside recurse =>
      let opened : Conversion :=
        { before with waiting := .opening :: before.waiting, operandDue := true }
      obtain ⟨middle, taken, held, waiting, passed, _, _⟩ :=
        recurse opened rfl (settled_opening _ _)
      let closed : Conversion := ⟨tree.postorder.reverse ++ before.passed, before.waiting, false⟩
      have closes : middle.accept (.paren .closing) = .ok closed := by
        simp only [accept, waiting, opened, close?_append, passed, closed]
      refine ⟨closed, ?_, [], rfl, rfl, rfl, by simp⟩
      change (tokens ++ [Token.paren .closing]).foldlM accept opened = _
      rw [foldlM_append_of_ok _ taken, List.foldlM_cons, closes]
      rfl
  | @negate tokens tree operand recurse =>
      let negated : Conversion :=
        { before with waiting := .operator .negate :: before.waiting, operandDue := true }
      have reached : before.accept (.operator (.binary .sub)) = .ok negated := by
        simp [accept, role, due, release_negate, pass, negated]
      obtain ⟨after, taken, held, waiting, passed, dueAfter, tight⟩ :=
        recurse negated rfl (settled_factor _)
      refine ⟨after, ?_, held ++ [.negate], ?_, ?_, dueAfter, ?_⟩
      · rw [List.foldlM_cons, reached]
        exact taken
      · simp [waiting, negated]
      · rw [pass_append, passed]
        simp [pass, Expression.postorder, negated]
      · intro op member
        rcases List.mem_append.mp member with inside | last
        · exact tight op inside
        · rw [List.mem_singleton.mp last]
          decide
  | factor single recurse =>
      obtain ⟨after, taken, took⟩ := recurse before due (settled.tighten (by decide))
      exact ⟨after, taken, took.loosen (by decide)⟩
  | product level _ _ recurseLeft recurseRight =>
      obtain ⟨middle, taken, took⟩ := recurseLeft before due settled
      exact foldlM_accept_binary level (by decide) settled taken took recurseRight
  | term single recurse =>
      obtain ⟨after, taken, took⟩ := recurse before due (settled.tighten (by decide))
      exact ⟨after, taken, took.loosen (by decide)⟩
  | sum level _ _ recurseLeft recurseRight =>
      obtain ⟨middle, taken, took⟩ := recurseLeft before due settled
      exact foldlM_accept_binary level (by decide) settled taken took recurseRight

end Conversion

/-- The postfix order of an expression's tokens is the postorder listing of its tree. -/
theorem Postfix.ofInfix_of_derives {tokens : List Token} {tree : Expression}
    (derived : Expression.Derives .sum tokens tree) :
    Postfix.ofInfix tokens = .ok tree.postorder := by
  obtain ⟨after, taken, held, waiting, passed, _, _⟩ :=
    Conversion.foldlM_accept_of_derives derived {} rfl (Conversion.settled_nil _)
  have finished : Conversion.finish? after.waiting = some held := by
    rw [waiting]
    simpa using Conversion.finish?_map held
  simp [ofInfix, taken, Conversion.result, finished, passed]

end PanelCalc
