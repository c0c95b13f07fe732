import PanelCalc.Fault

/-!
# Outcomes

Laws of computations that may end in a fault. `foldlM_keeps` carries an invariant through a run
over a list, given that no step breaks it; the invariant may speak of the items taken so far.
-/

namespace PanelCalc

/-- Outcomes are compared by what they hold. -/
instance decidableEqOutcome {Failure Value : Type} [DecidableEq Failure] [DecidableEq Value] :
    DecidableEq (Except Failure Value)
  | .ok left, .ok right => decidable_of_iff (left = right) (by simp)
  | .error left, .error right => decidable_of_iff (left = right) (by simp)
  | .ok _, .error _ => isFalse (by simp)
  | .error _, .ok _ => isFalse (by simp)

variable {Result Value State Item : Type}

/-- The fault of an outcome that is none. -/
def fault? : Except Fault Value → Option Fault
  | .ok _ => none
  | .error fault => some fault

/-- A computation in two stages succeeds just when both stages do. -/
theorem bind_eq_ok_iff {first : Except Fault Value} {next : Value → Except Fault Result}
    {result : Result} :
    first >>= next = .ok result ↔ ∃ value, first = .ok value ∧ next value = .ok result := by
  constructor
  · intro run
    cases first with
    | error fault => cases run
    | ok value => exact ⟨value, rfl, run⟩
  · rintro ⟨value, rfl, run⟩
    exact run

/-- A value that is passed through a function is there just when it was there before. -/
theorem map_eq_ok_iff {outcome : Except Fault Value} {change : Value → Result} {result : Result} :
    outcome.map change = .ok result ↔ ∃ value, outcome = .ok value ∧ change value = result := by
  cases outcome <;> simp [Except.map]

theorem map_eq_error_iff {outcome : Except Fault Value} {change : Value → Result} {fault : Fault} :
    outcome.map change = .error fault ↔ outcome = .error fault := by
  cases outcome <;> simp [Except.map]

/-- A computation in two stages fails in the first one, or else in the second one. -/
theorem bind_eq_error_iff {first : Except Fault Value} {next : Value → Except Fault Result}
    {fault : Fault} :
    first >>= next = .error fault ↔
      first = .error fault ∨ ∃ value, first = .ok value ∧ next value = .error fault := by
  cases first <;> simp [bind, Except.bind]

/-- Wrapping up a value is a stage that does not fail. -/
theorem bind_pure_eq_error_iff {outcome : Except Fault Value} {wrap : Value → Result}
    {fault : Fault} :
    (outcome >>= fun value => pure (wrap value)) = .error fault ↔ outcome = .error fault := by
  cases outcome <;> simp [bind, Except.bind, pure, Except.pure]

/-- A fold that has got through the first part of a list goes on with the second one. -/
theorem foldlM_append_of_ok {step : State → Item → Except Fault State} {before middle : State}
    {items : List Item} (others : List Item) (first : items.foldlM step before = .ok middle) :
    (items ++ others).foldlM step before = others.foldlM step middle := by
  rw [List.foldlM_append, first]
  rfl

/-- A run that ends in a fault has come, without any, to an item at which its step has failed. -/
theorem exists_of_foldlM_eq_error {step : State → Item → Except Fault State} {before : State}
    {items : List Item} {fault : Fault} (failed : items.foldlM step before = .error fault) :
    ∃ taken item later middle, items = taken ++ item :: later ∧
      taken.foldlM step before = .ok middle ∧ step middle item = .error fault := by
  induction items generalizing before with
  | nil => cases failed
  | cons first others recurse =>
      rw [List.foldlM_cons] at failed
      cases stepped : step before first with
      | error own =>
          rw [stepped] at failed
          cases failed
          exact ⟨[], first, others, before, rfl, rfl, stepped⟩
      | ok next =>
          rw [stepped] at failed
          obtain ⟨taken, item, later, middle, rfl, run, last⟩ := recurse failed
          refine ⟨first :: taken, item, later, middle, rfl, ?_, last⟩
          rw [List.foldlM_cons, stepped]
          exact run

/-- Runs whose steps agree on all their items agree. -/
theorem foldlM_congr_of_mem {first second : State → Item → Except Fault State} {items : List Item}
    (agree : ∀ item ∈ items, ∀ state, first state item = second state item) (before : State) :
    items.foldlM first before = items.foldlM second before := by
  induction items generalizing before with
  | nil => rfl
  | cons item others recurse =>
      rw [List.forall_mem_cons] at agree
      rw [List.foldlM_cons, List.foldlM_cons, agree.1]
      cases second before item with
      | error fault => rfl
      | ok next => exact recurse agree.2 next

/-- What holds before a run, and is kept by each of its steps, holds behind it. -/
theorem foldlM_keeps {step : State → Item → Except Fault State} {before after : State}
    {items : List Item} (Keeps : List Item → State → Prop) (start : Keeps [] before)
    (kept : ∀ taken item others state next, items = taken ++ item :: others →
      Keeps taken state → step state item = .ok next → Keeps (taken ++ [item]) next)
    (run : items.foldlM step before = .ok after) : Keeps items after := by
  suffices onward : ∀ others taken state, items = taken ++ others → Keeps taken state →
      others.foldlM step state = .ok after → Keeps items after from
    onward items [] before rfl start run
  intro others
  induction others with
  | nil =>
      intro taken state whole holds run
      cases run
      rw [whole, List.append_nil]
      exact holds
  | cons item others recurse =>
      intro taken state whole holds run
      rw [List.foldlM_cons, bind_eq_ok_iff] at run
      obtain ⟨next, stepped, rest⟩ := run
      refine recurse (taken ++ [item]) next ?_ ?_ rest
      · rw [whole, List.append_assoc, List.singleton_append]
      · exact kept taken item others state next whole holds stepped

end PanelCalc
