import PanelCalc.Binary64.Bits
import PanelCalc.Formula
import PanelCalc.Proofs.Infix.Balance
import PanelCalc.Proofs.Infix.Reading

/-!
# Finite values

No number that is read is infinite, a conversion passes on no other numbers than it takes, and
every operator checks its result: the value of a formula is finite. It is displayed as such, since
a formula is shown only if it has a value.
-/

namespace PanelCalc

/-- A numeral reads as a finite number, if at all. -/
theorem Decimal.isFinite_of_read? {numeral : List Char} {value : Float}
    (read : read? numeral = some value) : Binary64.isFinite value = true := by
  unfold read? at read
  split at read
  · rename_i accepted
    cases read
    simp only [Bool.and_eq_true, decide_eq_true_eq] at accepted
    simp [Binary64.isFinite, Binary64.magnitudeBits_ofMagnitude false accepted.2, accepted.2]
  · cases read

/-- A checked value is finite. -/
theorem isFinite_of_finite {value result : Float} (checked : finite value = .ok result) :
    Binary64.isFinite result = true := by
  unfold finite at checked
  split at checked
  · rename_i bounded
    cases checked
    exact bounded
  · cases checked

theorem Arith.isFinite_of_apply {operation : Arith} {left right result : Float}
    (applied : operation.apply left right = .ok result) : Binary64.isFinite result = true := by
  cases operation with
  | add | sub | mul => exact isFinite_of_finite applied
  | div | rem =>
      simp only [apply] at applied
      split at applied
      · cases applied
      · exact isFinite_of_finite applied

namespace Postfix

/-- A step puts a finite value on the stack unless its token is a number. -/
theorem isFinite_of_step {stack next : List Float} {token : Token}
    (stepped : step stack token = .ok next)
    (bounded : ∀ value raw, token = .number value raw → Binary64.isFinite value = true)
    (below : ∀ value ∈ stack, Binary64.isFinite value = true) :
    ∀ value ∈ next, Binary64.isFinite value = true := by
  match token with
  | .number given raw =>
      cases stepped
      simpa using ⟨bounded given raw rfl, below⟩
  | .paren side => cases stepped
  | .operator .negate =>
      match stack with
      | [] => cases stepped
      | operand :: rest =>
          obtain ⟨result, checked, rfl⟩ := map_eq_ok_iff.mp stepped
          simp only [List.forall_mem_cons] at below ⊢
          exact ⟨isFinite_of_finite checked, below.2⟩
  | .operator (.binary operation) =>
      match stack with
      | [] | [_] => cases stepped
      | right :: left :: rest =>
          obtain ⟨result, applied, rfl⟩ := map_eq_ok_iff.mp stepped
          simp only [List.forall_mem_cons] at below ⊢
          exact ⟨Arith.isFinite_of_apply applied, below.2.2⟩

/-- The value of tokens with finite numbers is finite. -/
theorem isFinite_of_value {tokens : List Token} {result : Float}
    (computed : value tokens = .ok result)
    (bounded : ∀ value raw, .number value raw ∈ tokens → Binary64.isFinite value = true) :
    Binary64.isFinite result = true := by
  unfold value at computed
  split at computed
  · cases computed
  · rename_i stack run
    have kept : ∀ value ∈ stack, Binary64.isFinite value = true := by
      refine foldlM_keeps (fun _ stack => ∀ value ∈ stack, Binary64.isFinite value = true)
        (by simp) ?_ run
      intro taken token others stack next whole below stepped
      refine isFinite_of_step stepped (fun value raw isNumber => ?_) below
      exact bounded value raw (by simp [whole, isNumber])
    match stack with
    | [only] =>
        cases computed
        exact kept result (by simp)
    | [] | _ :: _ :: _ => cases computed

end Postfix

namespace Token

/-- Whether a token is a number. -/
def isNumber : Token → Bool
  | number _ _ => true
  | operator _ | paren _ => false

/-- The operator that a token is. -/
def operator? : Token → Option Operator
  | operator op => some op
  | number _ _ | paren _ => none

end Token

namespace Conversion

/-- What a conversion has passed on apart from operators, the first token first. -/
def operands (conversion : Conversion) : List Token :=
  conversion.passed.reverse.filter (·.operator?.isNone)

/-- Operators that are passed on leave everything else as it is. -/
theorem filter_pass (ops : List Operator) (passed : List Token) :
    (pass ops passed).filter (·.operator?.isNone) = passed.filter (·.operator?.isNone) := by
  simp [pass, List.filter_eq_nil_iff, Token.operator?]

/-- A number is passed on at once, and a parenthesis is never passed on. -/
theorem operands_accept {before after : Conversion} {token : Token}
    (accepted : before.accept token = .ok after) :
    after.operands = before.operands ++ [token].filter Token.isNumber := by
  match token with
  | .number value raw =>
      cases accepted
      simp [operands, List.filter_cons, Token.operator?, Token.isNumber]
  | .paren .opening =>
      cases accepted
      simp [operands, Token.isNumber]
  | .paren .closing =>
      simp only [accept] at accepted
      split at accepted
      · cases accepted
      · cases accepted
        simp [operands, List.filter_reverse, filter_pass, Token.isNumber]
  | .operator op =>
      cases accepted
      simp [operands, List.filter_reverse, filter_pass, Token.isNumber]

end Conversion

namespace Postfix

/-- Apart from operators, a postfix order consists of the numbers of the tokens, in their order. -/
theorem operands_of_ofInfix {tokens ordered : List Token}
    (converted : ofInfix tokens = .ok ordered) :
    ordered.filter (·.operator?.isNone) = tokens.filter Token.isNumber := by
  obtain ⟨conversion, run, resulted⟩ := ofInfix_eq_ok_iff.mp converted
  have kept : conversion.operands = tokens.filter Token.isNumber := by
    refine foldlM_keeps
      (fun taken conversion => conversion.operands = taken.filter Token.isNumber) rfl ?_ run
    intro taken token others before after _ kept accepted
    rw [Conversion.operands_accept accepted, kept, List.filter_append]
  unfold Conversion.result at resulted
  split at resulted
  · cases resulted
  · cases resulted
    rw [← kept, Conversion.operands, List.filter_reverse, Conversion.filter_pass,
      List.filter_reverse]

/-- What is no operator in postfix order is a number of the tokens. -/
theorem mem_of_ofInfix {tokens ordered : List Token} (converted : ofInfix tokens = .ok ordered)
    {token : Token} (member : token ∈ ordered) (noOperator : token.operator? = none) :
    token ∈ tokens ∧ token.isNumber = true := by
  rw [← List.mem_filter, ← operands_of_ofInfix converted, List.mem_filter, noOperator]
  exact ⟨member, rfl⟩

end Postfix

/-- The value of a formula is finite. -/
theorem Formula.isFinite_of_value {text : String} {result : Float}
    (computed : value text = .ok result) : Binary64.isFinite result = true := by
  obtain ⟨ordered, converted, evaluated⟩ := bind_eq_ok_iff.mp computed
  obtain ⟨tokens, read, rearranged⟩ := bind_eq_ok_iff.mp converted
  refine Postfix.isFinite_of_value evaluated fun value raw member => ?_
  obtain ⟨taken, _⟩ := Postfix.mem_of_ofInfix rearranged member rfl
  exact Decimal.isFinite_of_read? ((Token.spelled_of_read read).isWritten _ taken).2

/-- What a formula is shown as is the display of its value. -/
theorem Formula.shown_eq_ok_iff {text result : String} :
    shown text = .ok result ↔ ∃ value, Formula.value text = .ok value ∧
      result = Decimal.display value := by
  rw [shown, bind_eq_ok_iff]
  constructor
  · rintro ⟨value, computed, same⟩
    cases same
    exact ⟨value, computed, rfl⟩
  · rintro ⟨value, computed, rfl⟩
    exact ⟨value, computed, rfl⟩

/-- A formula is not shown if it has no value. -/
theorem Formula.shown_eq_error_iff {text : String} {fault : Fault} :
    shown text = .error fault ↔ value text = .error fault := by
  unfold shown
  cases value text <;> simp [bind, Except.bind, pure, Except.pure]

end PanelCalc
