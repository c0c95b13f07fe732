import PanelCalc.Proofs.Calculator.Evaluation
import PanelCalc.Proofs.Calculator.History

/-!
# Why transfers are refused

A panel offers its result if it shows one, and otherwise the value of its expression without the
white space around it. `Panel.Offers` and `Panel.Withholds` say so without the order in which this
is checked, and leave no third case. `Calculator.transfer_outcome` draws from them what a transfer
does, by what reason it is refused, and what the guidance says about both panels.
-/

namespace PanelCalc

namespace Panel

variable {panel : Panel}

/-- `Offers panel value` says that a value is what a panel can give to another one. -/
inductive Offers (panel : Panel) : String → Prop where
  /-- The result that it shows. -/
  | result (shows : panel.ShowsResult) : Offers panel panel.result
  /-- What its expression amounts to. -/
  | computed {number : Float} (noResult : ¬panel.ShowsResult)
      (typed : ∃ char ∈ panel.expression.toList, Text.isBlank char = false)
      (valued : Formula.value (Text.trim panel.expression) = .ok number) :
      Offers panel (Decimal.display number)

/-- `Withholds panel reason` says for what reason a panel has no value to give. -/
inductive Withholds (panel : Panel) : String → Prop where
  | blank (noResult : ¬panel.ShowsResult)
      (blank : ∀ char ∈ panel.expression.toList, Text.isBlank char = true) :
      Withholds panel "No expression"
  | invalid {fault : Fault} (noResult : ¬panel.ShowsResult)
      (typed : ∃ char ∈ panel.expression.toList, Text.isBlank char = false)
      (failed : Formula.value (Text.trim panel.expression) = .error fault) :
      Withholds panel "Invalid expression"

/-- The result that is shown comes first. -/
theorem offer_of_result (shows : panel.ShowsResult) : panel.offer = .ok panel.result := by
  rw [offer, if_pos (by simpa [ShowsResult] using shows)]

theorem offer_of_blank (noResult : ¬panel.ShowsResult)
    (blank : ∀ char ∈ panel.expression.toList, Text.isBlank char = true) :
    panel.offer = .error nothingTyped := by
  rw [offer, if_neg (by simpa [ShowsResult] using noResult)]
  simp only [if_pos ((Text.trim_eq_empty_iff panel.expression).mpr blank)]

theorem Offers.offer {value : String} (offers : panel.Offers value) : panel.offer = .ok value := by
  cases offers with
  | result shows => exact offer_of_result shows
  | computed noResult typed valued =>
      rw [offer_of_typed noResult typed, Formula.shown_eq_ok_iff.mpr ⟨_, valued, rfl⟩]
      rfl

theorem Withholds.offer {reason : String} (withholds : panel.Withholds reason) :
    panel.offer = .error (.transferRefused reason) := by
  cases withholds with
  | blank noResult blank => exact offer_of_blank noResult blank
  | invalid noResult typed failed =>
      rw [offer_of_typed noResult typed, Formula.shown_eq_error_iff.mpr failed]
      rfl

/-- A panel offers a value or has a reason to withhold it. -/
theorem offers_or_withholds (panel : Panel) :
    (∃ value, panel.Offers value) ∨ ∃ reason, panel.Withholds reason := by
  by_cases shows : panel.ShowsResult
  · exact .inl ⟨_, .result shows⟩
  by_cases blank : ∀ char ∈ panel.expression.toList, Text.isBlank char = true
  · exact .inr ⟨_, .blank shows blank⟩
  · have typed : ∃ char ∈ panel.expression.toList, Text.isBlank char = false := by
      simpa using blank
    cases valued : Formula.value (Text.trim panel.expression) with
    | ok number => exact .inl ⟨_, .computed shows typed valued⟩
    | error fault => exact .inr ⟨_, .invalid shows typed valued⟩

theorem offer_eq_ok_iff {value : String} : panel.offer = .ok value ↔ panel.Offers value := by
  refine ⟨fun given => ?_, Offers.offer⟩
  rcases panel.offers_or_withholds with ⟨own, offers⟩ | ⟨reason, withholds⟩
  · rw [offers.offer] at given
    cases given
    exact offers
  · rw [withholds.offer] at given
    cases given

theorem offer_eq_error_iff {fault : Fault} :
    panel.offer = .error fault ↔
      ∃ reason, panel.Withholds reason ∧ fault = .transferRefused reason := by
  constructor
  · intro withheld
    rcases panel.offers_or_withholds with ⟨own, offers⟩ | ⟨reason, withholds⟩
    · rw [offers.offer] at withheld
      cases withheld
    · rw [withholds.offer] at withheld
      cases withheld
      exact ⟨reason, withholds, rfl⟩
  · rintro ⟨reason, withholds, rfl⟩
    exact withholds.offer

end Panel

namespace Calculator

variable {calculator next : Calculator} {source target : PanelId}

/-- `Refuses calculator source target reason` says for what reason a transfer is refused. -/
inductive Refuses (calculator : Calculator) (source target : PanelId) : String → Prop where
  | same (same : source = target) :
      Refuses calculator source target "Source and destination are the same panel"
  | withheld {reason : String} (differ : source ≠ target)
      (withholds : (calculator.panel source).Withholds reason) :
      Refuses calculator source target reason

/-- The guidance that names a panel. -/
def nothingIn : PanelId → String
  | .top => "Top has nothing transferable."
  | .bottom => "Bottom has nothing transferable."

theorem hasOffer_iff {id : PanelId} :
    calculator.hasOffer id = true ↔ ∃ value, calculator.offer id = .ok value := by
  unfold hasOffer
  cases calculator.offer id <;> simp [Except.isOk, Except.toBool]

theorem hasOffer_eq_false_iff {id : PanelId} :
    calculator.hasOffer id = false ↔ ∃ fault, calculator.offer id = .error fault := by
  unfold hasOffer
  cases calculator.offer id <;> simp [Except.isOk, Except.toBool]

/-- The guidance names the panel that alone has no value to give. -/
theorem guidance_eq_nothingIn_iff (calculator : Calculator) (id : PanelId) :
    calculator.guidance = nothingIn id ↔
      calculator.hasOffer id = false ∧ calculator.hasOffer id.other = true := by
  unfold guidance
  cases fromTop : calculator.hasOffer .top <;> cases fromBottom : calculator.hasOffer .bottom <;>
    cases id <;> simp [fromTop, fromBottom, nothingIn, PanelId.other]

theorem transfer_isOk_iff :
    (∃ next, calculator.transfer source target = .ok next) ↔
      source ≠ target ∧ calculator.hasOffer source = true := by
  simp only [transfer_eq_ok_iff, hasOffer_iff]
  constructor
  · rintro ⟨_, differ, value, given, _⟩
    exact ⟨differ, value, given⟩
  · rintro ⟨differ, value, given⟩
    exact ⟨_, differ, value, given, rfl⟩

/-- A transfer fails just for the reasons for which it is refused. -/
theorem transfer_eq_error_iff_refuses {fault : Fault} :
    calculator.transfer source target = .error fault ↔
      ∃ reason, calculator.Refuses source target reason ∧ fault = .transferRefused reason := by
  rw [transfer_eq_error_iff]
  constructor
  · rintro (⟨same, rfl⟩ | ⟨differ, withheld⟩)
    · exact ⟨_, .same same, rfl⟩
    · obtain ⟨reason, withholds, rfl⟩ := Panel.offer_eq_error_iff.mp withheld
      exact ⟨reason, .withheld differ withholds, rfl⟩
  · rintro ⟨reason, refuses, rfl⟩
    cases refuses with
    | same same => exact .inl ⟨same, rfl⟩
    | withheld differ withholds => exact .inr ⟨differ, withholds.offer⟩

/-- A transfer succeeds just between different panels of which the source has a value to give. Then
the settings and the source stay as they are, and the other panel begins to edit the value or, in
appending mode, its expression with the value behind it. Otherwise the transfer is refused for one
of three reasons. The guidance names a panel just when it alone is refused as a source for the
other one. -/
theorem transfer_outcome (calculator : Calculator) (source target : PanelId) :
    ((∃ next, calculator.attempt (.transfer source target) = .ok next) ↔
      source ≠ target ∧ calculator.hasOffer source = true) ∧
    (∀ next, calculator.attempt (.transfer source target) = .ok next →
      ∃ value, calculator.offer source = .ok value ∧ (calculator.panel source).Offers value ∧
        next.panel source = calculator.panel source ∧ next.settings = calculator.settings ∧
        next.panel target =
          match calculator.settings.transferMode with
          | .overwrite => .editing value
          | .append => .editing ((calculator.panel target).expression ++ value)) ∧
    (∀ fault, calculator.attempt (.transfer source target) = .error fault ↔
      ∃ reason, calculator.Refuses source target reason ∧ fault = .transferRefused reason) ∧
    ∀ id, calculator.guidance = nothingIn id ↔
      (∃ fault, calculator.attempt (.transfer id id.other) = .error fault) ∧
        ∃ next, calculator.attempt (.transfer id.other id) = .ok next := by
  refine ⟨transfer_isOk_iff, fun next moved => ?_, fun fault => transfer_eq_error_iff_refuses,
    fun id => ?_⟩
  · obtain ⟨differ, value, given, rfl⟩ := transfer_eq_ok_iff.mp moved
    refine ⟨value, given, Panel.offer_eq_ok_iff.mp given,
      panel_setPanel_of_ne calculator _ differ.symm, settings_setPanel calculator target _, ?_⟩
    rw [panel_setPanel_self]
    cases calculator.settings.transferMode <;> rfl
  · have differ : id ≠ id.other := by cases id <;> decide
    simp only [attempt, transfer_isOk_iff, transfer_eq_error_iff, guidance_eq_nothingIn_iff,
      hasOffer_eq_false_iff, differ, differ.symm, ne_eq, not_false_eq_true, false_and, true_and,
      false_or]

/-- A panel in whose expression nothing but a no-break space stands shows an empty result, and is
named by the guidance. It takes the value of the other panel behind that space, although the other
panel holds an error and a result that it does not show. -/
theorem transfer_outcome_of_empty_result :
    let calculator : Calculator :=
      { top := .showing "\u00a0" ""
        bottom := { expression := "1+2", result := "9", error := some errorText }
        settings := { transferMode := .append } }
    calculator.attempt (.transfer .top .bottom) = .error (.transferRefused "No expression") ∧
    (∃ next, calculator.attempt (.transfer .bottom .top) = .ok next ∧
      next.panel .top = .editing "\u00a03" ∧ next.panel .bottom = calculator.panel .bottom) ∧
    calculator.guidance = "Top has nothing transferable." := by
  intro calculator
  obtain ⟨_, _, refused, guided⟩ := calculator.transfer_outcome .top .bottom
  obtain ⟨succeeds, moves, _, _⟩ := calculator.transfer_outcome .bottom .top
  have noResult : ¬(calculator.panel .top).ShowsResult := fun shows => shows.2 rfl
  have blank : ∀ char ∈ (calculator.panel .top).expression.toList, Text.isBlank char = true :=
    List.all_eq_true.mp (by decide)
  have given : calculator.offer .bottom = .ok "3" := by decide +kernel
  have fails := (refused _).mpr ⟨_, .withheld (by decide) (.blank noResult blank), rfl⟩
  obtain ⟨next, moved⟩ := succeeds.mpr ⟨by decide, hasOffer_iff.mpr ⟨_, given⟩⟩
  obtain ⟨value, offered, _, kept, _, received⟩ := moves next moved
  rw [given] at offered
  cases offered
  exact ⟨fails, ⟨next, moved, received, kept⟩, (guided .top).mpr ⟨⟨_, fails⟩, next, moved⟩⟩

end Calculator

end PanelCalc
