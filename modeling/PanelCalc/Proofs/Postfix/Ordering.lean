import PanelCalc.Proofs.Infix.Acceptance
import PanelCalc.Proofs.Infix.Faults

/-!
# What is reordered into postfix order

Tokens have a postfix order just when their parentheses pair up, whatever else stands among them.
It keeps the numbers in their places and the operators in number, those minus signs apart that
negate: `Postfix.ofInfix_reorders`. The operators that a conversion has passed on and those that it
holds back are, taken together, the operators that it has read; `Conversion.operators_accept` is
this law for one token.
-/

namespace PanelCalc

namespace Token

/-- The operators among tokens. -/
def operators (tokens : List Token) : List Operator := tokens.filterMap operator?

@[simp] theorem operators_nil : operators [] = [] := rfl

@[simp] theorem operators_number (value : Float) (raw : String) (others : List Token) :
    operators (number value raw :: others) = operators others := rfl

@[simp] theorem operators_operator (op : Operator) (others : List Token) :
    operators (operator op :: others) = op :: operators others := rfl

@[simp] theorem operators_paren (side : Paren) (others : List Token) :
    operators (paren side :: others) = operators others := rfl

@[simp] theorem operators_append (left right : List Token) :
    operators (left ++ right) = operators left ++ operators right :=
  List.filterMap_append

theorem operators_perm {left right : List Token} (same : left.Perm right) :
    (operators left).Perm (operators right) :=
  same.filterMap operator?

/-- What a token stands for behind another one, or at the start if there is none: a minus sign at
the start, directly behind an operator and directly behind an opening parenthesis negates. -/
def resolve : Option Token → Token → Token
  | none, operator (.binary .sub) => operator .negate
  | some (operator _), operator (.binary .sub) => operator .negate
  | some (paren .opening), operator (.binary .sub) => operator .negate
  | _, token => token

/-- What tokens stand for behind another one. -/
def resolvedBehind (previous : Option Token) (tokens : List Token) : List Token :=
  List.zipWith resolve (previous :: tokens.map some) tokens

/-- What tokens stand for, each behind the one before it. -/
def resolved (tokens : List Token) : List Token := resolvedBehind none tokens

/-- Whether the parentheses of tokens pair up: nowhere have more of them been closed than opened,
and in the end as many have. -/
structure Balanced (tokens : List Token) : Prop where
  opened : ∀ front, front <+: tokens → front.count (.paren .closing) ≤ front.count (.paren .opening)
  closed : tokens.count (.paren .closing) = tokens.count (.paren .opening)

@[simp] theorem resolvedBehind_nil (previous : Option Token) :
    resolvedBehind previous [] = [] := rfl

@[simp] theorem resolvedBehind_cons (previous : Option Token) (token : Token)
    (others : List Token) :
    resolvedBehind previous (token :: others) =
      resolve previous token :: resolvedBehind (some token) others := rfl

end Token

/-- The token that waits. -/
def Waiting.token : Waiting → Token
  | operator op => .operator op
  | opening => .paren .opening

namespace Conversion

/-! ## Parentheses -/

/-- A closing parenthesis finds an opening one if any is open. -/
theorem close?_isSome_iff (waiting : List Waiting) :
    (close? waiting).isSome = true ↔ 0 < waiting.count .opening := by
  induction waiting with
  | nil => simp [close?]
  | cons top below recurse => cases top <;> simp [close?, recurse]

/-- The end is reached if no parenthesis is open. -/
theorem finish?_isSome_iff (waiting : List Waiting) :
    (finish? waiting).isSome = true ↔ waiting.count .opening = 0 := by
  induction waiting with
  | nil => simp [finish?]
  | cons top below recurse => cases top <;> simp [finish?, recurse]

/-- The only token that is ever refused is a closing parenthesis where none is open. -/
theorem accept_isOk_iff (before : Conversion) (token : Token) :
    (∃ after, before.accept token = .ok after) ↔ (token = .paren .closing → 0 < before.depth) := by
  match token with
  | .number value raw => simp [accept]
  | .operator op => simp [accept]
  | .paren .opening => simp [accept]
  | .paren .closing =>
      have finds := close?_isSome_iff before.waiting
      simp only [accept, depth, forall_const, ← finds]
      cases close? before.waiting <;> simp

/-- A token opens or closes a parenthesis, or does neither. -/
theorem depth_accept {before after : Conversion} {token : Token}
    (accepted : before.accept token = .ok after) :
    after.depth + [token].count (.paren .closing) =
      before.depth + [token].count (.paren .opening) := by
  have depths := (accept_balance accepted).2
  match token with
  | .number value raw => simpa [depthBehind] using depths
  | .operator op => simpa [depthBehind] using depths
  | .paren .opening => simpa [depthBehind] using depths
  | .paren .closing =>
      have opened := depth_pos_of_accept accepted
      simp only [depthBehind] at depths
      simp
      omega

/-- Tokens are taken as long as no parenthesis is closed that is not open. -/
theorem foldlM_accept_isOk_iff (tokens : List Token) (before : Conversion) :
    (∃ after, tokens.foldlM accept before = .ok after) ↔
      ∀ front, front <+: tokens →
        front.count (.paren .closing) ≤ before.depth + front.count (.paren .opening) := by
  induction tokens generalizing before with
  | nil => simp [pure, Except.pure]
  | cons token others recurse =>
      have takes := accept_isOk_iff before token
      rw [List.foldlM_cons]
      cases accepted : before.accept token with
      | error fault =>
          simp only [accepted, reduceCtorEq, exists_false, false_iff, Classical.not_imp] at takes
          obtain ⟨rfl, none⟩ := takes
          refine iff_of_false (by rintro ⟨after, run⟩; cases run) fun opened => ?_
          have first := opened [.paren .closing] (by simp)
          simp at first
          omega
      | ok next =>
          have depths := depth_accept accepted
          have run : (Except.ok next >>= fun state => others.foldlM accept state) =
              others.foldlM accept next := rfl
          have further : ∀ (front : List Token) (side : Paren),
              (token :: front).count (.paren side) =
                [token].count (.paren side) + front.count (.paren side) :=
            fun front side => by rw [← List.count_append, List.singleton_append]
          rw [run, recurse]
          constructor
          · intro opened front begins
            rcases List.prefix_cons_iff.mp begins with rfl | ⟨behind, rfl, onward⟩
            · simp
            · have behindOpened := opened behind onward
              rw [further behind .closing, further behind .opening]
              omega
          · intro opened front begins
            have wholeOpened := opened (token :: front) ((List.prefix_cons_inj token).mpr begins)
            rw [further front .closing, further front .opening] at wholeOpened
            omega

/-- Tokens open as many parentheses as they close and leave open. -/
theorem depth_of_foldlM {tokens : List Token} {before after : Conversion}
    (run : tokens.foldlM accept before = .ok after) :
    after.depth + tokens.count (.paren .closing) =
      before.depth + tokens.count (.paren .opening) := by
  refine foldlM_keeps (fun taken state => state.depth + taken.count (.paren .closing) =
    before.depth + taken.count (.paren .opening)) rfl ?_ run
  intro taken token others state next _ depths accepted
  have step := depth_accept accepted
  rw [List.count_append, List.count_append]
  omega

/-- A conversion comes to a result if all parentheses are closed. -/
theorem result_isOk_iff (conversion : Conversion) :
    (∃ ordered, conversion.result = .ok ordered) ↔ conversion.depth = 0 := by
  simp only [result, depth, ← finish?_isSome_iff]
  cases finish? conversion.waiting <;> simp

/-! ## Operators -/

/-- The operators that a conversion has passed on or holds back. -/
def operators (conversion : Conversion) : List Operator :=
  Token.operators (conversion.passed ++ conversion.waiting.map Waiting.token)

/-- No token is lost or doubled when waiting operators are passed on. -/
theorem pass_perm (ops : List Operator) (passed : List Token) (below : List Waiting) :
    (pass ops passed ++ below.map Waiting.token).Perm
      (passed ++ (ops.map Waiting.operator ++ below).map Waiting.token) := by
  have held : (ops.map Waiting.operator).map Waiting.token = ops.map Token.operator := by
    rw [List.map_map]
    rfl
  rw [pass, List.map_append, held, ← List.append_assoc]
  exact (((List.reverse_perm _).append_right _).trans List.perm_append_comm).append_right _

/-- A token that is taken adds itself, as it is read, to the operators. -/
theorem operators_accept {before after : Conversion} {token : Token}
    (accepted : before.accept token = .ok after) :
    after.operators.Perm (before.operators ++ Token.operators [before.reading token]) := by
  match token with
  | .number value raw =>
      cases accepted
      simp [operators, reading]
  | .paren .opening =>
      cases accepted
      simp [operators, reading, Waiting.token]
  | .paren .closing =>
      simp only [accept] at accepted
      split at accepted
      · cases accepted
      · rename_i ops below closed
        cases accepted
        have moved := Token.operators_perm (pass_perm ops before.passed below)
        simpa [operators, reading, Waiting.token, close?_split closed] using moved
  | .operator op =>
      cases accepted
      have split := release_split (role before.operandDue op) before.waiting
      generalize release (role before.operandDue op) before.waiting = released at split
      have moved := Token.operators_perm (pass_perm released.1 before.passed released.2)
      rw [split, Token.operators_append] at moved
      have added := List.perm_middle.trans
        ((moved.cons (role before.operandDue op)).trans (List.perm_append_singleton _ _).symm)
      simpa [operators, reading, Waiting.token] using added

/-- Whether an operand is due behind a token, or at the start if there is none. -/
def DueBehind (conversion : Conversion) (previous : Option Token) : Prop :=
  conversion.operandDue = previous.all (!·.endsOperand)

/-- A token is read as what it stands for behind the one before it. -/
theorem DueBehind.reading {before : Conversion} {previous : Option Token}
    (due : before.DueBehind previous) (token : Token) :
    before.reading token = Token.resolve previous token := by
  match token with
  | .number value raw | .paren side => simp [Conversion.reading, Token.resolve]
  | .operator op =>
      rw [DueBehind] at due
      by_cases minus : op = .binary .sub
      · subst minus
        rcases previous with _ | ⟨_ | _ | ⟨_ | _⟩⟩ <;>
          simp_all [Conversion.reading, Conversion.role, Token.resolve, Token.endsOperand]
      · simp [Conversion.reading, Conversion.role, Token.resolve, minus]

/-- A run over tokens adds them, as what they stand for, to the operators. -/
theorem operators_of_foldlM {tokens : List Token} {before after : Conversion}
    {previous : Option Token} (due : before.DueBehind previous)
    (run : tokens.foldlM accept before = .ok after) :
    after.operators.Perm
      (before.operators ++ Token.operators (Token.resolvedBehind previous tokens)) := by
  induction tokens generalizing before previous with
  | nil =>
      cases run
      simp
  | cons token others recurse =>
      rw [List.foldlM_cons, bind_eq_ok_iff] at run
      obtain ⟨next, accepted, rest⟩ := run
      have dueNext : next.DueBehind (some token) := operandDue_of_accept accepted
      have added := operators_accept accepted
      rw [due.reading token] at added
      refine (recurse dueNext rest).trans ((added.append_right _).trans ?_)
      rw [List.append_assoc, ← Token.operators_append, List.singleton_append,
        Token.resolvedBehind_cons]

/-- The result of a conversion has its operators. -/
theorem operators_of_result {conversion : Conversion} {ordered : List Token}
    (resulted : conversion.result = .ok ordered) :
    (Token.operators ordered).Perm conversion.operators := by
  simp only [result] at resulted
  split at resulted
  · cases resulted
  · rename_i ops finished
    cases resulted
    have moved := Token.operators_perm (pass_perm ops conversion.passed [])
    rw [List.append_nil, ← finish?_split finished, List.map_nil, List.append_nil] at moved
    exact (Token.operators_perm (List.reverse_perm _)).trans moved

end Conversion

namespace Postfix

/-- Tokens can be ordered just when their parentheses pair up. -/
theorem ofInfix_isOk_iff (tokens : List Token) :
    (∃ ordered, ofInfix tokens = .ok ordered) ↔ Token.Balanced tokens := by
  have takes := Conversion.foldlM_accept_isOk_iff tokens {}
  have start : Conversion.depth {} = 0 := rfl
  simp only [start, Nat.zero_add] at takes
  constructor
  · rintro ⟨ordered, converted⟩
    obtain ⟨conversion, run, resulted⟩ := ofInfix_eq_ok_iff.mp converted
    have depths := Conversion.depth_of_foldlM run
    have none := conversion.result_isOk_iff.mp ⟨ordered, resulted⟩
    exact ⟨takes.mp ⟨conversion, run⟩, by omega⟩
  · rintro ⟨opened, closed⟩
    obtain ⟨conversion, run⟩ := takes.mpr opened
    have depths := Conversion.depth_of_foldlM run
    obtain ⟨ordered, resulted⟩ := conversion.result_isOk_iff.mpr (by omega)
    exact ⟨ordered, ofInfix_eq_ok_iff.mpr ⟨conversion, run, resulted⟩⟩

/-- The numbers keep their places in postfix order. -/
theorem filter_isNumber_of_ofInfix {tokens ordered : List Token}
    (converted : ofInfix tokens = .ok ordered) :
    ordered.filter Token.isNumber = tokens.filter Token.isNumber := by
  have kept := congrArg (List.filter Token.isNumber) (operands_of_ofInfix converted)
  rw [List.filter_filter, List.filter_filter] at kept
  have noOperator : ∀ token : Token,
      (token.isNumber && token.operator?.isNone) = token.isNumber := by
    intro token
    cases token <;> rfl
  simpa only [noOperator, Bool.and_self] using kept

/-- The operators are kept in postfix order, each as what it stands for. -/
theorem operators_of_ofInfix {tokens ordered : List Token}
    (converted : ofInfix tokens = .ok ordered) :
    (Token.operators ordered).Perm (Token.operators (Token.resolved tokens)) := by
  obtain ⟨conversion, run, resulted⟩ := ofInfix_eq_ok_iff.mp converted
  have due : Conversion.DueBehind {} none := rfl
  exact (Conversion.operators_of_result resulted).trans (Conversion.operators_of_foldlM due run)

/-- Tokens have a postfix order just when their parentheses pair up, and no other fault is found in
them. There is no parenthesis in it, the numbers are those of the tokens and in the same order, and
the operators are those of the tokens in some order, except that just the minus signs at the start,
directly behind an operator and directly behind an opening parenthesis have become negations. -/
theorem ofInfix_reorders (tokens : List Token) :
    (∀ fault, ofInfix tokens = .error fault → fault = .mismatchedParens) ∧
    ((∃ ordered, ofInfix tokens = .ok ordered) ↔ Token.Balanced tokens) ∧
    ∀ ordered, ofInfix tokens = .ok ordered →
      (∀ side, .paren side ∉ ordered) ∧
      ordered.filter Token.isNumber = tokens.filter Token.isNumber ∧
      (Token.operators ordered).Perm (Token.operators (Token.resolved tokens)) := by
  refine ⟨fun fault refused => ofInfix_eq_error refused, ofInfix_isOk_iff tokens,
    fun ordered converted => ⟨?_, ?_, ?_⟩⟩
  · exact paren_not_mem_of_ofInfix converted
  · exact filter_isNumber_of_ofInfix converted
  · exact operators_of_ofInfix converted

end Postfix
end PanelCalc
