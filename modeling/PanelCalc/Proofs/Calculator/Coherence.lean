import PanelCalc.Proofs.Calculator.History
import PanelCalc.Proofs.Decimal.Figures
import PanelCalc.Proofs.Infix.Finite

/-!
# Coherent panels

Result, error and mode of a panel agree with each other and with its expression: `Panel.Coherent`.
Every action leaves a coherent panel, whatever panel it finds, and leaves an error only if it is an
evaluation that fails. `Calculator.coherent_run` says so of all panels that a calculator reaches.
-/

namespace PanelCalc

namespace Panel

/-- The parts of a panel agree. -/
structure Coherent (panel : Panel) : Prop where
  /-- No result is kept while an expression is being typed. -/
  editing : panel.mode = .editing → panel.result = ""
  /-- A result is that of the expression beside it. -/
  showing : panel.mode = .result →
    panel.error = none ∧ panel.result ≠ "" ∧ panel.result ≠ errorText ∧
      ∃ value, Formula.value panel.expression = .ok value ∧ Binary64.isFinite value = true ∧
        panel.result = Decimal.display value
  /-- There is a single error text. -/
  errors : panel.error = none ∨ panel.error = some errorText

/-- Whether evaluating a panel fails. -/
def Fails (panel : Panel) : Prop := ∃ fault, Formula.value panel.shown = .error fault

/-- A panel in which an expression is being typed is coherent. -/
theorem coherent_editing (expression : String) : (editing expression).Coherent where
  editing _ := rfl
  showing impossible := by cases impossible
  errors := .inl rfl

/-- A panel that shows what a formula is shown as is coherent. -/
theorem coherent_showing {expression result : String}
    (computed : Formula.shown expression = .ok result) :
    (Panel.showing expression result).Coherent where
  editing impossible := by cases impossible
  showing _ := by
    obtain ⟨value, evaluated, rfl⟩ := Formula.shown_eq_ok_iff.mp computed
    have bounded := Formula.isFinite_of_value evaluated
    exact ⟨rfl, Decimal.display_ne_empty bounded, Decimal.display_ne_errorText bounded,
      value, evaluated, bounded, rfl⟩
  errors := .inl rfl

/-- An evaluation leaves a coherent panel. -/
theorem coherent_evaluate (panel : Panel) : panel.evaluate.Coherent := by
  unfold evaluate
  split
  · rename_i result computed
    exact coherent_showing computed
  · exact ⟨fun _ => rfl, by simp, .inr rfl⟩

/-- Typing leaves an expression that is being typed. -/
theorem type_eq_editing (panel : Panel) (text : String) :
    ∃ expression, panel.type text = editing expression := by
  simp only [type]
  split
  · exact ⟨_, rfl⟩
  split
  · exact ⟨_, rfl⟩
  · exact ⟨_, rfl⟩

/-- An action other than an evaluation leaves an expression that is being typed. -/
theorem after_eq_editing (panel : Panel) {action : Action} (noEvaluation : action ≠ .evaluate) :
    ∃ expression, panel.after action = editing expression := by
  cases action with
  | type text => exact panel.type_eq_editing text
  | clear => exact ⟨"", rfl⟩
  | backspace => exact ⟨_, rfl⟩
  | evaluate => exact absurd rfl noEvaluation
  | receive value mode => cases mode <;> exact ⟨_, rfl⟩

/-- Every action leaves a coherent panel. -/
theorem coherent_after (panel : Panel) (action : Action) : (panel.after action).Coherent := by
  by_cases isEvaluation : action = .evaluate
  · subst isEvaluation
    exact panel.coherent_evaluate
  · obtain ⟨expression, typed⟩ := panel.after_eq_editing isEvaluation
    rw [typed]
    exact coherent_editing expression

/-- An evaluation leaves an error just when it fails. -/
theorem error_evaluate_isSome_iff (panel : Panel) :
    panel.evaluate.error.isSome = true ↔ panel.Fails := by
  unfold evaluate Fails
  split
  · rename_i result computed
    obtain ⟨value, evaluated, _⟩ := Formula.shown_eq_ok_iff.mp computed
    simp [showing, evaluated]
  · rename_i fault failed
    simp [Formula.shown_eq_error_iff.mp failed]

/-- An action leaves an error just when it is an evaluation that fails. -/
theorem error_after_isSome_iff (panel : Panel) (action : Action) :
    (panel.after action).error.isSome = true ↔ action = .evaluate ∧ panel.Fails := by
  by_cases isEvaluation : action = .evaluate
  · subst isEvaluation
    simpa [after] using panel.error_evaluate_isSome_iff
  · obtain ⟨expression, typed⟩ := panel.after_eq_editing isEvaluation
    simp [typed, editing, isEvaluation]

end Panel

/-- The panels of a new calculator are empty. -/
theorem Calculator.panel_start (settings : Settings) (id : PanelId) :
    (start settings).panel id = {} := by
  cases id <;> rfl

/-- Every panel that a calculator reaches is coherent. -/
theorem Calculator.coherent_panel (settings : Settings) (actions : List Action) (id : PanelId) :
    (((start settings).run actions).panel id).Coherent := by
  rw [panel_run]
  cases (start settings).lastDelivered id actions with
  | none =>
      rw [panel_start]
      exact Panel.coherent_editing ""
  | some last => exact last.1.coherent_after last.2

/-- A panel has an error just when the last action that was applied to it is an evaluation of what
has no value. -/
theorem Calculator.error_panel_isSome_iff (settings : Settings) (actions : List Action)
    (id : PanelId) :
    (((start settings).run actions).panel id).error.isSome = true ↔
      ∃ before, (start settings).lastDelivered id actions = some (before, .evaluate) ∧
        before.Fails := by
  rw [panel_run]
  cases (start settings).lastDelivered id actions with
  | none =>
      rw [panel_start]
      simp
  | some last =>
      obtain ⟨before, action⟩ := last
      rw [before.error_after_isSome_iff]
      constructor
      · rintro ⟨rfl, fails⟩
        exact ⟨before, rfl, fails⟩
      · rintro ⟨panel, same, fails⟩
        cases same
        exact ⟨rfl, fails⟩

/-- Every panel that a calculator reaches is coherent, and it has an error just when the last
action that was applied to it is an evaluation of what has no value. -/
theorem Calculator.coherent_run (settings : Settings) (actions : List Action) (id : PanelId) :
    (((start settings).run actions).panel id).Coherent ∧
      ((((start settings).run actions).panel id).error.isSome = true ↔
        ∃ before, (start settings).lastDelivered id actions = some (before, .evaluate) ∧
          before.Fails) :=
  ⟨coherent_panel settings actions id, error_panel_isSome_iff settings actions id⟩

end PanelCalc
