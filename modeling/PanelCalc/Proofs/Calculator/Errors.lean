import PanelCalc.Proofs.Calculator.Transfer

/-!
# Errors beside expressions

An evaluation that fails leaves an error beside the expression of the panel. If the panel was
showing that expression, the expression is at fault, and another evaluation fails again. But if the
panel was showing a result, the result was at fault, which only happens to a result that is written
with an exponent: the expression then still has that result, and another evaluation shows it.
`Calculator.error_beside_expression` says so of all panels that a calculator reaches.
-/

namespace PanelCalc

namespace Panel

/-- An evaluation that fails keeps the expression and shows an error beside it. -/
theorem evaluate_of_fails {panel : Panel} (fails : panel.Fails) :
    panel.evaluate = { expression := panel.expression, error := some errorText } := by
  obtain ⟨fault, failed⟩ := fails
  simp [evaluate, Formula.shown_eq_error_iff.mpr failed]

/-- An expression that failed while it was shown fails again. -/
theorem evaluate_evaluate_of_editing {panel : Panel} (fails : panel.Fails)
    (editing : panel.mode = .editing) :
    (∃ fault, Formula.value panel.expression = .error fault) ∧
      panel.evaluate.evaluate = panel.evaluate := by
  have wrong : ∃ fault, Formula.value panel.expression = .error fault := by
    simpa [Fails, shown, editing] using fails
  refine ⟨wrong, ?_⟩
  rw [evaluate_of_fails fails]
  have again : Fails { expression := panel.expression, error := some errorText } := wrong
  exact evaluate_of_fails again

/-- Only a result with an exponent fails, and the expression beside it still has that result. -/
theorem Coherent.evaluate_evaluate_of_result {panel : Panel} (coherent : panel.Coherent)
    (fails : panel.Fails) (showsResult : panel.mode = .result) :
    'e' ∈ panel.result.toList ∧ Formula.shown panel.expression = .ok panel.result ∧
      panel.evaluate.evaluate = .showing panel.expression panel.result := by
  obtain ⟨_, _, _, value, valued, bounded, displayed⟩ := coherent.showing showsResult
  have computed : Formula.shown panel.expression = .ok panel.result :=
    Formula.shown_eq_ok_iff.mpr ⟨value, valued, displayed⟩
  refine ⟨?_, computed, ?_⟩
  · by_contra plain
    rw [displayed] at plain
    obtain ⟨fault, failed⟩ := fails
    rw [shown, showsResult, displayed] at failed
    have stuck := Formula.shown_eq_error_iff.mpr failed
    rw [Formula.shown_display bounded plain] at stuck
    cases stuck
  · rw [evaluate_of_fails fails]
    simp [evaluate, shown, computed]

end Panel

namespace Calculator

/-- What the last action on a panel has found is a panel that was reached before. -/
theorem exists_of_lastDelivered {calculator : Calculator} {id : PanelId} {actions : List Action}
    {before : Panel} {action : Panel.Action}
    (last : calculator.lastDelivered id actions = some (before, action)) :
    ∃ taken, taken <+: actions ∧ before = (calculator.run taken).panel id := by
  induction actions generalizing calculator with
  | nil => cases last
  | cons first later recurse =>
      rw [lastDelivered, Option.or_eq_some_iff] at last
      rcases last with inLater | ⟨_, isFirst⟩
      · obtain ⟨taken, initial, same⟩ := recurse inLater
        exact ⟨first :: taken, List.cons_prefix_cons.mpr ⟨rfl, initial⟩, same⟩
      · obtain ⟨inner, _, same⟩ := Option.map_eq_some_iff.mp isFirst
        cases same
        exact ⟨[], List.nil_prefix, rfl⟩

/-- An error on a panel that a calculator reaches was left by an evaluation of what the panel was
showing, with the same expression. If it was showing that expression, the expression has no value,
and another evaluation leaves everything as it is. If it was showing a result, that result has an
exponent, the expression still has this result, and another evaluation shows it. -/
theorem error_beside_expression {settings : Settings} {actions : List Action} {id : PanelId}
    (mistaken : (((start settings).run actions).panel id).error.isSome = true) :
    let panel := ((start settings).run actions).panel id
    ∃ before, (start settings).lastDelivered id actions = some (before, .evaluate) ∧
      before.expression = panel.expression ∧
      (before.mode = .editing →
        (∃ fault, Formula.value panel.expression = .error fault) ∧ panel.evaluate = panel) ∧
      (before.mode = .result →
        'e' ∈ before.result.toList ∧ Formula.shown panel.expression = .ok before.result ∧
          panel.evaluate = .showing panel.expression before.result) := by
  intro panel
  obtain ⟨before, last, fails⟩ := (error_panel_isSome_iff settings actions id).mp mistaken
  have left : panel = before.evaluate := by
    simp only [panel, panel_run, last]
    rfl
  have kept : panel.expression = before.expression := by
    rw [left, Panel.evaluate_of_fails fails]
  obtain ⟨taken, _, reached⟩ := exists_of_lastDelivered last
  have coherent : before.Coherent := reached ▸ coherent_panel settings taken id
  refine ⟨before, last, kept.symm, ?_, ?_⟩
  · intro editing
    rw [kept, left]
    exact Panel.evaluate_evaluate_of_editing fails editing
  · intro showsResult
    rw [kept, left]
    exact coherent.evaluate_evaluate_of_result fails showsResult

/-- A division by zero fails again and again. A number of eighteen digits is shown with an exponent;
that fails once, and then the number is shown again. -/
theorem error_beside_expression_of_quotient_and_large_number :
    let failed := ((start {}).run [.panel .top (.type "1/0"), .panel .top .evaluate]).panel .top
    let mistaken := ((start {}).run [.panel .top (.type "100000000000000000"),
      .panel .top .evaluate, .panel .top .evaluate]).panel .top
    (failed = { expression := "1/0", error := some errorText } ∧ failed.evaluate = failed) ∧
      mistaken = { expression := "100000000000000000", error := some errorText } ∧
      mistaken.evaluate = .showing "100000000000000000" "1e+17" := by
  intro failed mistaken
  constructor
  · have mistaken : ((start {}).run
        [.panel .top (.type "1/0"), .panel .top .evaluate]).panel .top =
          { expression := "1/0", error := some errorText } := by decide +kernel
    obtain ⟨before, last, _, wrong, _⟩ :=
      error_beside_expression (by rw [mistaken]; rfl)
    refine ⟨mistaken, (wrong ?_).2⟩
    cases last
    decide +kernel
  · have mistaken : ((start {}).run
        [.panel .top (.type "100000000000000000"), .panel .top .evaluate,
          .panel .top .evaluate]).panel .top =
          { expression := "100000000000000000", error := some errorText } := by decide +kernel
    obtain ⟨before, last, _, _, right⟩ :=
      error_beside_expression (by rw [mistaken]; rfl)
    have found : before = .showing "100000000000000000" "1e+17" := by
      cases last
      decide +kernel
    subst found
    obtain ⟨_, _, shows⟩ := right rfl
    refine ⟨mistaken, shows.trans ?_⟩
    rw [mistaken]
    rfl

/-- An error may stand beside an expression that has a value. -/
theorem error_beside_right_expression :
    ¬∀ (settings : Settings) (actions : List Action) (id : PanelId),
      (((start settings).run actions).panel id).error.isSome = true →
        ∃ fault, Formula.value (((start settings).run actions).panel id).expression =
          .error fault := by
  intro wrong
  obtain ⟨fault, failed⟩ := wrong {} [.panel .top (.type "100000000000000000"),
    .panel .top .evaluate, .panel .top .evaluate] .top (by decide +kernel)
  have valued : (Formula.value (((start {}).run [.panel .top (.type "100000000000000000"),
    .panel .top .evaluate, .panel .top .evaluate]).panel .top).expression).isOk = true := by
    decide +kernel
  rw [failed] at valued
  cases valued

end Calculator
end PanelCalc
