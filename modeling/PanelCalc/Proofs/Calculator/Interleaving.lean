import PanelCalc.Proofs.Calculator.History
import PanelCalc.Proofs.Settings.Requests

/-!
# Independent actions

Actions on the upper panel, actions on the lower one and requests of the settings have nothing to do
with each other. However three rows of them are mixed, each row comes to what it comes to alone, and
the settings refuse what they refuse alone: `Calculator.run_interleaved`.
-/

namespace PanelCalc

/-- `Interleaved upper lower requests actions` says that a row of actions is a mixture of actions on
the two panels and of requests of the settings, each kind in an order of its own. -/
inductive Interleaved : List Panel.Action → List Panel.Action → List (String × String) →
    List Action → Prop where
  | nil : Interleaved [] [] [] []
  | top {upper lower : List Panel.Action} {requests : List (String × String)}
      {actions : List Action} (action : Panel.Action)
      (later : Interleaved upper lower requests actions) :
      Interleaved (action :: upper) lower requests (.panel .top action :: actions)
  | bottom {upper lower : List Panel.Action} {requests : List (String × String)}
      {actions : List Action} (action : Panel.Action)
      (later : Interleaved upper lower requests actions) :
      Interleaved upper (action :: lower) requests (.panel .bottom action :: actions)
  | set {upper lower : List Panel.Action} {requests : List (String × String)}
      {actions : List Action} (key value : String)
      (later : Interleaved upper lower requests actions) :
      Interleaved upper lower ((key, value) :: requests) (.set key value :: actions)

/-- What settings answer to a row of requests, one after another: the fault of each refused one. -/
def Settings.answers (settings : Settings) : List (String × String) → List (Option Fault)
  | [] => []
  | request :: later =>
      fault? (settings.set request.1 request.2) :: (settings.after request).answers later

namespace Calculator

/-- What a calculator answers to an action that is a request of its settings. -/
def answer? : Calculator × Action → Option (Option Fault)
  | (calculator, .set key value) => some (fault? (calculator.attempt (.set key value)))
  | (_, .panel _ _) | (_, .transfer _ _) => none

/-- What a calculator answers to the requests of its settings in a run, one after another. -/
def answers (calculator : Calculator) (actions : List Action) : List (Option Fault) :=
  (calculator.moments actions).filterMap answer?

/-- A request of the settings is answered by them. -/
theorem fault?_attempt_set (calculator : Calculator) (key value : String) :
    fault? (calculator.attempt (.set key value)) = fault? (calculator.settings.set key value) := by
  simp only [attempt, set]
  cases calculator.settings.set key value <;> rfl

/-- A request of the settings changes nothing else. -/
theorem after_set (calculator : Calculator) (key value : String) :
    calculator.after (.set key value) =
      { calculator with settings := calculator.settings.after (key, value) } := by
  simp only [after, attempt, set, Settings.after]
  cases calculator.settings.set key value <;> rfl

theorem answers_set (calculator : Calculator) (key value : String) (later : List Action) :
    calculator.answers (.set key value :: later) =
      fault? (calculator.settings.set key value) ::
        (calculator.after (.set key value)).answers later := by
  rw [← fault?_attempt_set]
  rfl

/-- A mixture of independent actions leaves on each panel what that panel's own actions make of it,
and of the settings what their own requests make of them. -/
theorem run_of_interleaved {upper lower : List Panel.Action} {requests : List (String × String)}
    {actions : List Action} (mixed : Interleaved upper lower requests actions)
    (calculator : Calculator) :
    calculator.run actions =
      { top := upper.foldl Panel.after calculator.top
        bottom := lower.foldl Panel.after calculator.bottom
        settings := calculator.settings.run requests } := by
  induction mixed generalizing calculator with
  | nil => rfl
  | top action later recurse => exact recurse (calculator.after (.panel .top action))
  | bottom action later recurse => exact recurse (calculator.after (.panel .bottom action))
  | set key value later recurse =>
      rw [run_cons, recurse, after_set, Settings.run_cons]

/-- In a mixture of independent actions, the settings answer as they do to their own requests
alone. -/
theorem answers_of_interleaved {upper lower : List Panel.Action}
    {requests : List (String × String)} {actions : List Action}
    (mixed : Interleaved upper lower requests actions) (calculator : Calculator) :
    calculator.answers actions = calculator.settings.answers requests := by
  induction mixed generalizing calculator with
  | nil => rfl
  | top action later recurse => exact recurse (calculator.after (.panel .top action))
  | bottom action later recurse => exact recurse (calculator.after (.panel .bottom action))
  | set key value later recurse =>
      rw [answers_set, recurse, after_set, Settings.answers]

/-- Independent actions may be mixed in any order: each panel becomes what its own actions make of
it, the settings become what their own requests make of them, and all mixtures lead to the same
calculator and the same answers, which refuse the same requests. -/
theorem run_interleaved {upper lower : List Panel.Action} {requests : List (String × String)}
    {actions : List Action} (mixed : Interleaved upper lower requests actions)
    (calculator : Calculator) :
    (calculator.run actions =
        { top := upper.foldl Panel.after calculator.top
          bottom := lower.foldl Panel.after calculator.bottom
          settings := calculator.settings.run requests } ∧
      calculator.answers actions = calculator.settings.answers requests) ∧
    ∀ {others : List Action}, Interleaved upper lower requests others →
      calculator.run others = calculator.run actions ∧
        calculator.answers others = calculator.answers actions := by
  have ran := run_of_interleaved mixed calculator
  have answered := answers_of_interleaved mixed calculator
  refine ⟨⟨ran, answered⟩, ?_⟩
  intro others otherwise
  constructor
  · exact (run_of_interleaved otherwise calculator).trans ran.symm
  · exact (answers_of_interleaved otherwise calculator).trans answered.symm

/-- Two mixtures of a failing division, a product and two requests, of which one is refused. -/
theorem run_interleaved_of_quotient_and_product :
    let mixture : List Action :=
      [.set "volume" "11", .panel .top (.type "1/0"), .panel .bottom (.type "6"),
        .panel .top .evaluate, .set "theme" "light", .panel .bottom (.type "×"),
        .panel .bottom (.type "7"), .panel .bottom .evaluate]
    run {} mixture =
        { top := { expression := "1/0", error := some errorText }
          bottom := .showing "6*7" "42"
          settings := { theme := .light } } ∧
      answers {} mixture = [some (.unknownSetting "volume"), none] ∧
      run {} [.panel .bottom (.type "6"), .panel .bottom (.type "×"), .panel .bottom (.type "7"),
        .panel .bottom .evaluate, .panel .top (.type "1/0"), .panel .top .evaluate,
        .set "volume" "11", .set "theme" "light"] = run {} mixture := by
  intro mixture
  have mixed : Interleaved [.type "1/0", .evaluate]
      [.type "6", .type "×", .type "7", .evaluate] [("volume", "11"), ("theme", "light")] mixture :=
    .set _ _ (.top _ (.bottom _ (.top _ (.set _ _ (.bottom _ (.bottom _ (.bottom _ .nil)))))))
  obtain ⟨⟨ran, answered⟩, otherwise⟩ := run_interleaved mixed {}
  refine ⟨ran.trans ?_, answered.trans ?_, (otherwise ?_).1⟩
  · decide +kernel
  · decide
  · exact .bottom _ (.bottom _ (.bottom _ (.bottom _ (.top _ (.top _ (.set _ _ (.set _ _ .nil)))))))

end Calculator
end PanelCalc
