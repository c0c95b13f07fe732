import PanelCalc.Proofs.Calculator.Coherence
import PanelCalc.Proofs.Infix.Shown

/-!
# Transferred values

What a panel gives is always a displayed number, and a panel that takes it over holds it alone. A
number without an exponent can then be given on and evaluated as it stands:
`Calculator.usable_of_transfer`. One with an exponent is not read back.
-/

namespace PanelCalc

/-- A displayed number has no white space around it. -/
theorem Decimal.trim_display {number : Float} (bounded : Binary64.isFinite number = true) :
    Text.trim (display number) = display number :=
  Text.trim_eq_self fun _ member => isBlank_of_isFigure (isFigure_of_mem_display bounded member)

namespace Panel

/-- What a coherent panel gives is a displayed number. -/
theorem Coherent.offer_eq_display {panel : Panel} (coherent : panel.Coherent) {value : String}
    (given : panel.offer = .ok value) :
    ∃ number, Binary64.isFinite number = true ∧ value = Decimal.display number := by
  unfold offer at given
  split at given
  · rename_i shows
    simp only [Bool.and_eq_true, decide_eq_true_eq] at shows
    obtain ⟨_, _, _, number, _, bounded, same⟩ := coherent.showing shows.1
    cases given
    exact ⟨number, bounded, same⟩
  · simp only at given
    split at given
    · cases given
    · split at given
      · rename_i result computed
        cases given
        obtain ⟨number, valued, same⟩ := Formula.shown_eq_ok_iff.mp computed
        exact ⟨number, Formula.isFinite_of_value valued, same⟩
      · cases given

/-- A panel that holds a displayed number without an exponent gives it and shows it when
evaluated. -/
theorem usable_of_plain {number : Float} (bounded : Binary64.isFinite number = true)
    (plain : 'e' ∉ (Decimal.display number).toList) :
    (editing (Decimal.display number)).offer = .ok (Decimal.display number) ∧
      (editing (Decimal.display number)).evaluate =
        showing (Decimal.display number) (Decimal.display number) := by
  have again := Formula.shown_display bounded plain
  constructor
  · simp [offer, editing, Decimal.trim_display bounded, Decimal.display_ne_empty bounded, again]
  · simp [evaluate, shown, editing, again]

/-- A panel that holds a displayed number with an exponent refuses it and fails when evaluated. -/
theorem stuck_of_exponent {number : Float} (bounded : Binary64.isFinite number = true)
    (letter : 'e' ∈ (Decimal.display number).toList) :
    (editing (Decimal.display number)).offer = .error notComputable ∧
      (editing (Decimal.display number)).evaluate =
        { expression := Decimal.display number, error := some errorText } := by
  obtain ⟨fault, failed⟩ := Formula.value_of_mem_exponent letter
  have notShown := Formula.shown_eq_error_iff.mpr failed
  constructor
  · simp [offer, editing, Decimal.trim_display bounded, Decimal.display_ne_empty bounded, notShown]
  · simp [evaluate, shown, editing, notShown]

end Panel

namespace Calculator

/-- A transfer in overwriting mode leaves the given value alone in the receiving panel. -/
theorem panel_of_transfer {calculator next : Calculator} {source target : PanelId} {value : String}
    (overwrites : calculator.settings.transferMode = .overwrite)
    (moved : calculator.transfer source target = .ok next)
    (given : calculator.offer source = .ok value) : next.panel target = .editing value := by
  obtain ⟨_, own, offered, rfl⟩ := transfer_eq_ok_iff.mp moved
  rw [given] at offered
  cases offered
  rw [panel_setPanel_self, overwrites]
  rfl

/-- After every transfer in overwriting mode, from every state that a calculator reaches, a value
without an exponent can be given on by the receiving panel and is shown when that panel is
evaluated. A value with an exponent stays in the receiving panel, which refuses to give it on and
cannot evaluate it. -/
theorem usable_of_transfer {settings : Settings} {actions : List Action} {next : Calculator}
    {source target : PanelId} {value : String}
    (overwrites : ((start settings).run actions).settings.transferMode = .overwrite)
    (moved : ((start settings).run actions).transfer source target = .ok next)
    (given : ((start settings).run actions).offer source = .ok value) :
    ('e' ∉ value.toList →
      next.offer target = .ok value ∧
        (next.after (.panel target .evaluate)).panel target = .showing value value) ∧
    ('e' ∈ value.toList →
      next.panel target = .editing value ∧ next.offer target = .error Panel.notComputable ∧
        (next.after (.panel target .evaluate)).panel target =
          { expression := value, error := some errorText }) := by
  have received := panel_of_transfer overwrites moved given
  obtain ⟨number, bounded, rfl⟩ :=
    (coherent_panel settings actions source).offer_eq_display given
  have evaluated : (next.after (.panel target .evaluate)).panel target =
      (Panel.editing (Decimal.display number)).evaluate := by
    rw [← received]
    exact panel_setPanel_self next target _
  rw [evaluated, offer, received]
  constructor
  · intro plain
    exact Panel.usable_of_plain bounded plain
  · intro letter
    exact ⟨rfl, Panel.stuck_of_exponent bounded letter⟩

/-- Two thirds below zero are given on as displayed, one eight-millionth is not. -/
theorem usable_of_transfer_of_fractions :
    (∃ next, ((start {}).run [.panel .top (.type "1/3-1")]).transfer .top .bottom = .ok next ∧
      next.offer .bottom = .ok "-0.66666666666667" ∧
      (next.after (.panel .bottom .evaluate)).panel .bottom =
        .showing "-0.66666666666667" "-0.66666666666667") ∧
    ∃ next, ((start {}).run [.panel .bottom (.type "1/8000000")]).transfer .bottom .top = .ok next ∧
      next.panel .top = .editing "1.25e-7" ∧ next.offer .top = .error Panel.notComputable := by
  constructor
  · have moved : ((start {}).run [.panel .top (.type "1/3-1")]).transfer .top .bottom =
        .ok ⟨.editing "1/3-1", .editing "-0.66666666666667", {}⟩ := by decide +kernel
    have given : ((start {}).run [.panel .top (.type "1/3-1")]).offer .top =
        .ok "-0.66666666666667" := by decide +kernel
    exact ⟨_, moved, (usable_of_transfer rfl moved given).1 (by decide +kernel)⟩
  · have moved : ((start {}).run [.panel .bottom (.type "1/8000000")]).transfer .bottom .top =
        .ok ⟨.editing "1.25e-7", .editing "1/8000000", {}⟩ := by decide +kernel
    have given : ((start {}).run [.panel .bottom (.type "1/8000000")]).offer .bottom =
        .ok "1.25e-7" := by decide +kernel
    obtain ⟨received, refused, _⟩ := (usable_of_transfer rfl moved given).2 (by decide +kernel)
    exact ⟨_, moved, received, refused⟩

/-- Not every transferred value can be given on: seventeen zeros behind a one are shown with an
exponent. -/
theorem not_every_transfer_usable :
    ¬∀ (settings : Settings) (actions : List Action) (source target : PanelId) (value : String)
        (next : Calculator),
      ((start settings).run actions).settings.transferMode = .overwrite → source ≠ target →
      ((start settings).run actions).transfer source target = .ok next →
      ((start settings).run actions).offer source = .ok value →
      next.offer target = .ok value ∧
        ((next.after (.panel target .evaluate)).panel target).mode = .result ∧
        ((next.after (.panel target .evaluate)).panel target).result = value := by
  intro usable
  have moved : ((start {}).run [.panel .top (.type "100000000000000000")]).transfer .top .bottom =
      .ok ⟨.editing "100000000000000000", .editing "1e+17", {}⟩ := by decide +kernel
  have given := (usable {} _ .top .bottom "1e+17" _ rfl (by decide) moved (by decide +kernel)).1
  revert given
  decide +kernel

end Calculator
end PanelCalc
