import PanelCalc.Proofs.Infix.Balance
import PanelCalc.Proofs.Infix.Conversion

/-!
# Groups in any context

A group in parentheses counts as the number that is its value, wherever it stands, and whether or
not the tokens around it make sense: `Postfix.same_outcome_of_group`. Two frames carry this. What
is taken inside of a group never looks below the opening parenthesis (`Conversion.inside`), and
what is evaluated on a stack never looks below the values it needs (`foldlM_step_append`).
-/

namespace PanelCalc

namespace Conversion

/-- The only fault of a conversion. -/
theorem accept_eq_error {before : Conversion} {token : Token} {fault : Fault}
    (refused : before.accept token = .error fault) : fault = .mismatchedParens := by
  match token with
  | .number _ _ | .paren .opening | .operator _ => cases refused
  | .paren .closing =>
      simp only [accept] at refused
      split at refused
      · cases refused
        rfl
      · cases refused

theorem foldlM_accept_eq_error {tokens : List Token} {before : Conversion} {fault : Fault}
    (refused : tokens.foldlM accept before = .error fault) : fault = .mismatchedParens := by
  induction tokens generalizing before with
  | nil => cases refused
  | cons token others recurse =>
      rw [List.foldlM_cons] at refused
      cases accepted : before.accept token with
      | error first =>
          rw [accepted] at refused
          cases refused
          exact accept_eq_error accepted
      | ok next =>
          rw [accepted] at refused
          exact recurse refused

theorem result_eq_error {conversion : Conversion} {fault : Fault}
    (refused : conversion.result = .error fault) : fault = .mismatchedParens := by
  simp only [result] at refused
  split at refused
  · cases refused
    rfl
  · cases refused

/-! ## What has been passed on before -/

/-- A conversion that has passed on further tokens, before all others. -/
def behind (conversion : Conversion) (earlier : List Token) : Conversion :=
  { conversion with passed := conversion.passed ++ earlier }

theorem pass_append_right (ops : List Operator) (passed earlier : List Token) :
    pass ops (passed ++ earlier) = pass ops passed ++ earlier := by
  simp [pass]

/-- What has been passed on does not matter to a token. -/
theorem accept_behind (conversion : Conversion) (earlier : List Token) (token : Token) :
    (conversion.behind earlier).accept token =
      (conversion.accept token).map (·.behind earlier) := by
  match token with
  | .number value raw => rfl
  | .paren .opening => rfl
  | .paren .closing =>
      simp only [accept, behind]
      cases close? conversion.waiting with
      | none => rfl
      | some closed =>
          simp only [pass_append_right]
          rfl
  | .operator op =>
      simp only [accept, behind, pass_append_right]
      rfl

theorem foldlM_accept_behind (tokens : List Token) (conversion : Conversion)
    (earlier : List Token) :
    tokens.foldlM accept (conversion.behind earlier) =
      (tokens.foldlM accept conversion).map (·.behind earlier) := by
  induction tokens generalizing conversion with
  | nil => rfl
  | cons token others recurse =>
      rw [List.foldlM_cons, List.foldlM_cons, accept_behind]
      cases conversion.accept token with
      | error fault => rfl
      | ok next => exact recurse next

/-- What has been passed on before stands at the front of the result. -/
theorem result_behind (conversion : Conversion) (earlier : List Token) :
    (conversion.behind earlier).result = conversion.result.map (earlier.reverse ++ ·) := by
  simp only [result, behind]
  cases finish? conversion.waiting with
  | none => rfl
  | some ops =>
      simp only [pass_append_right, List.reverse_append]
      rfl

/-! ## What waits outside of a group -/

/-- The conversion `outer` once it has opened a group, inside of which it has come as far as the
conversion `inner`. -/
def inside (inner outer : Conversion) : Conversion :=
  { passed := inner.passed ++ outer.passed
    waiting := inner.waiting ++ .opening :: outer.waiting
    operandDue := inner.operandDue }

/-- A release inside of a group stops at the opening parenthesis at the latest. -/
theorem release_inside (arriving : Operator) (waiting below : List Waiting) :
    release arriving (waiting ++ .opening :: below) =
      ((release arriving waiting).1, (release arriving waiting).2 ++ .opening :: below) := by
  fun_induction release arriving waiting with
  | case1 held others first released recurse =>
      simp [release, first, released, recurse]
  | case2 held others first => simp [release, first]
  | case3 waiting noOperator =>
      cases waiting with
      | nil => rfl
      | cons first others =>
          cases first with
          | opening => rfl
          | operator held => exact absurd rfl (noOperator held others)

/-- A parenthesis that closes one opened inside of a group leaves the group open. -/
theorem close?_inside {waiting rest : List Waiting} {ops : List Operator} (below : List Waiting)
    (closed : close? waiting = some (ops, rest)) :
    close? (waiting ++ below) = some (ops, rest ++ below) := by
  rw [close?_split closed, List.append_assoc, List.cons_append]
  exact close?_append ops (rest ++ below)

/-- A token that is taken by itself is taken inside of a group, and with the same effect. -/
theorem accept_inside {inner next : Conversion} {token : Token} (outer : Conversion)
    (accepted : inner.accept token = .ok next) :
    (inner.inside outer).accept token = .ok (next.inside outer) := by
  match token with
  | .number value raw =>
      cases accepted
      rfl
  | .paren .opening =>
      cases accepted
      rfl
  | .paren .closing =>
      simp only [accept] at accepted
      split at accepted
      · cases accepted
      · rename_i ops rest closed
        cases accepted
        have closes := close?_inside (.opening :: outer.waiting) closed
        simp only [accept, inside, closes, pass_append_right]
  | .operator op =>
      cases accepted
      simp only [accept, inside, release_inside, pass_append_right]
      rfl

theorem foldlM_accept_inside {tokens : List Token} {inner next : Conversion} (outer : Conversion)
    (run : tokens.foldlM accept inner = .ok next) :
    tokens.foldlM accept (inner.inside outer) = .ok (next.inside outer) := by
  induction tokens generalizing inner with
  | nil =>
      cases run
      rfl
  | cons token others recurse =>
      rw [List.foldlM_cons, bind_eq_ok_iff] at run
      obtain ⟨middle, accepted, rest⟩ := run
      rw [List.foldlM_cons, accept_inside outer accepted]
      exact recurse rest

/-! ## Operands -/

/-- `TakesAsOperand tokens ordered` says that every conversion passes on tokens in a given order and
holds nothing back, just as it passes on a single number. -/
def TakesAsOperand (tokens ordered : List Token) : Prop :=
  ∀ before : Conversion,
    tokens.foldlM accept before =
      .ok { before with passed := ordered.reverse ++ before.passed, operandDue := false }

theorem takesAsOperand_number (value : Float) (raw : String) :
    TakesAsOperand [.number value raw] [.number value raw] := fun _ => rfl

/-- A group in parentheses is taken as an operand if its inside has a postfix order. -/
theorem takesAsOperand_group {tokens ordered : List Token}
    (converted : Postfix.ofInfix tokens = .ok ordered) :
    TakesAsOperand (.paren .opening :: tokens ++ [.paren .closing]) ordered := by
  intro before
  obtain ⟨conversion, run, resulted⟩ := Postfix.ofInfix_eq_ok_iff.mp converted
  simp only [result] at resulted
  split at resulted
  · cases resulted
  · rename_i ops finished
    cases resulted
    -- What is left waiting inside of the group is what its closing parenthesis releases.
    have closes : close? (conversion.waiting ++ .opening :: before.waiting) =
        some (ops, before.waiting) := by
      rw [finish?_split finished]
      exact close?_append ops before.waiting
    change (tokens ++ [Token.paren .closing]).foldlM accept (inside {} before) = _
    rw [foldlM_append_of_ok _ (foldlM_accept_inside before run), List.foldlM_cons]
    simp only [accept, inside, closes, pass_append_right, List.reverse_reverse]
    rfl

end Conversion

namespace Postfix

open Conversion (TakesAsOperand)

/-- Parentheses that do not pair up are all that keeps tokens from having a postfix order. -/
theorem ofInfix_eq_error {tokens : List Token} {fault : Fault}
    (refused : ofInfix tokens = .error fault) : fault = .mismatchedParens := by
  unfold ofInfix at refused
  split at refused
  · rename_i first run
    cases refused
    exact Conversion.foldlM_accept_eq_error run
  · exact Conversion.result_eq_error refused

/-- Whether an operand and the tokens around it have a postfix order, and what it is around the
operand, does not depend on the operand. -/
theorem ofInfix_around (before behind : List Token) :
    ∃ around : Except Fault (List Token × List Token), ∀ operand ordered,
      TakesAsOperand operand ordered →
        ofInfix (before ++ operand ++ behind) =
          around.map fun sides => sides.1 ++ ordered ++ sides.2 := by
  cases start : before.foldlM Conversion.accept {} with
  | error fault =>
      refine ⟨.error fault, ?_⟩
      intro operand ordered _
      simp only [ofInfix, List.append_assoc, List.foldlM_append, start]
      rfl
  | ok reached =>
      -- Behind the operand a conversion goes on as if nothing had been passed on.
      let fresh : Conversion := { reached with passed := [], operandDue := false }
      refine ⟨(behind.foldlM Conversion.accept fresh >>= Conversion.result).map
        fun right => (reached.passed.reverse, right), ?_⟩
      intro operand ordered takes
      have taken : (before ++ operand).foldlM Conversion.accept {} =
          .ok (fresh.behind (ordered.reverse ++ reached.passed)) := by
        rw [foldlM_append_of_ok _ start, takes reached]
        rfl
      rw [ofInfix, foldlM_append_of_ok _ taken, Conversion.foldlM_accept_behind]
      cases behind.foldlM Conversion.accept fresh with
      | error fault => rfl
      | ok last =>
          change (last.behind _).result = (last.result.map _).map _
          rw [Conversion.result_behind]
          cases last.result with
          | error fault => rfl
          | ok right => simp [Except.map]

/-- Evaluation leaves alone what stands on the stack below the values it needs. -/
theorem step_append {stack next : List Float} {token : Token} (below : List Float)
    (stepped : step stack token = .ok next) :
    step (stack ++ below) token = .ok (next ++ below) := by
  match token with
  | .number value raw =>
      cases stepped
      rfl
  | .paren side => cases stepped
  | .operator .negate =>
      match stack with
      | [] => cases stepped
      | operand :: rest =>
          obtain ⟨value, computed, rfl⟩ := map_eq_ok_iff.mp stepped
          simp [step, computed, Except.map]
  | .operator (.binary operation) =>
      match stack with
      | [] | [_] => cases stepped
      | right :: left :: rest =>
          obtain ⟨value, computed, rfl⟩ := map_eq_ok_iff.mp stepped
          simp [step, computed, Except.map]

theorem foldlM_step_append {tokens : List Token} {stack next : List Float} (below : List Float)
    (run : tokens.foldlM step stack = .ok next) :
    tokens.foldlM step (stack ++ below) = .ok (next ++ below) := by
  induction tokens generalizing stack with
  | nil =>
      cases run
      rfl
  | cons token others recurse =>
      rw [List.foldlM_cons, bind_eq_ok_iff] at run
      obtain ⟨middle, stepped, rest⟩ := run
      rw [List.foldlM_cons, step_append below stepped]
      exact recurse rest

/-- Tokens that have a value put it on any stack. -/
theorem foldlM_step_of_value {tokens : List Token} {result : Float}
    (computed : value tokens = .ok result) (stack : List Float) :
    tokens.foldlM step stack = .ok (result :: stack) := by
  unfold value at computed
  split at computed
  · cases computed
  · rename_i last run
    match last with
    | [only] =>
        cases computed
        exact foldlM_step_append stack run
    | [] | _ :: _ :: _ => cases computed

/-- Tokens that do the same to every stack can stand for each other. -/
theorem value_congr {left right : List Token}
    (same : ∀ stack, left.foldlM step stack = right.foldlM step stack)
    (before behind : List Token) :
    value (before ++ left ++ behind) = value (before ++ right ++ behind) := by
  simp only [value, List.foldlM_append, same]

/-- In front of any tokens and behind any, a group in parentheses that has a value gives the same
outcome as a number with that value: both texts have parentheses that do not pair up, or both have
a postfix order and then the same value or the same fault. -/
theorem same_outcome_of_group {inside ordered : List Token} {result : Float}
    (converted : ofInfix inside = .ok ordered) (computed : value ordered = .ok result)
    (before behind : List Token) (raw : String) :
    (ofInfix (before ++ [.paren .opening] ++ inside ++ [.paren .closing] ++ behind) =
        .error .mismatchedParens ∧
      ofInfix (before ++ [.number result raw] ++ behind) = .error .mismatchedParens) ∨
    ∃ grouped replaced,
      ofInfix (before ++ [.paren .opening] ++ inside ++ [.paren .closing] ++ behind) =
        .ok grouped ∧
      ofInfix (before ++ [.number result raw] ++ behind) = .ok replaced ∧
      value grouped = value replaced := by
  obtain ⟨around, conversions⟩ := ofInfix_around before behind
  have group := conversions _ _ (Conversion.takesAsOperand_group converted)
  have number := conversions _ _ (Conversion.takesAsOperand_number result raw)
  have regroup : before ++ [.paren .opening] ++ inside ++ [.paren .closing] ++ behind =
      before ++ (.paren .opening :: inside ++ [.paren .closing]) ++ behind := by simp
  rw [regroup]
  cases around with
  | error fault =>
      have only := ofInfix_eq_error number
      subst only
      exact .inl ⟨group, number⟩
  | ok sides =>
      refine .inr ⟨_, _, group, number, ?_⟩
      apply value_congr
      intro stack
      rw [foldlM_step_of_value computed stack]
      rfl

/-- The group `(1+2)` counts as its value also between `*` and `4-`, where the operators lack
operands: both texts multiply three by four and then find a single operand for the subtraction. -/
theorem same_outcome_of_group_among_strays :
    ∃ grouped replaced,
      ofInfix [.operator (.binary .mul), .paren .opening, .number 1 "1", .operator (.binary .add),
        .number 2 "2", .paren .closing, .number 4 "4", .operator (.binary .sub)] = .ok grouped ∧
      ofInfix [.operator (.binary .mul), .number 3 "3", .number 4 "4", .operator (.binary .sub)] =
        .ok replaced ∧
      value grouped = .error (shortage (.binary .sub) 1) ∧ value grouped = value replaced := by
  have converted : ofInfix [.number 1 "1", .operator (.binary .add), .number 2 "2"] =
      .ok [.number 1 "1", .number 2 "2", .operator (.binary .add)] := by decide
  have computed : value [.number 1 "1", .number 2 "2", .operator (.binary .add)] = .ok 3 := by
    decide +kernel
  have outcome := same_outcome_of_group converted computed [.operator (.binary .mul)]
    [.number 4 "4", .operator (.binary .sub)] "3"
  rcases outcome with ⟨refused, _⟩ | ⟨grouped, replaced, group, number, same⟩
  · exact absurd refused (by decide)
  · refine ⟨grouped, replaced, group, number, ?_, same⟩
    rw [same]
    cases number
    decide +kernel

end Postfix
end PanelCalc
