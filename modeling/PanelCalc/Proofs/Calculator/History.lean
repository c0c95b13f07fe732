import PanelCalc.Calculator

/-!
# What happens to each panel

An action of a calculator changes a panel only by delivering an action to it: `panel_after`. Over
a run, a panel is therefore what its last delivered action has made of it: `panel_run`.
-/

namespace PanelCalc.Calculator

/-- The calculator after a row of actions, refused ones left out. -/
def run (calculator : Calculator) (actions : List Action) : Calculator :=
  actions.foldl after calculator

/-- The moments of a run: each of its actions with the calculator that it finds. -/
def moments (calculator : Calculator) : List Action → List (Calculator × Action)
  | [] => []
  | action :: later => (calculator, action) :: (calculator.after action).moments later

/-- The action that a panel undergoes by an action of the calculator, if it undergoes one: its own
actions, and the arrival of a value that the other panel gives. -/
def delivered (calculator : Calculator) (id : PanelId) : Action → Option Panel.Action
  | .panel target action => if target = id then some action else none
  | .transfer source target =>
      if source = target ∨ target ≠ id then none
      else
        match calculator.offer source with
        | .ok value => some (.receive value calculator.settings.transferMode)
        | .error _ => none
  | .set _ _ => none

/-- The last action that a panel undergoes in a run, with the panel as that action finds it. -/
def lastDelivered (id : PanelId) (calculator : Calculator) :
    List Action → Option (Panel × Panel.Action)
  | [] => none
  | action :: later =>
      ((calculator.after action).lastDelivered id later).or
        ((calculator.delivered id action).map fun inner => (calculator.panel id, inner))

@[simp] theorem run_nil (calculator : Calculator) : calculator.run [] = calculator := rfl

@[simp] theorem run_cons (calculator : Calculator) (action : Action) (later : List Action) :
    calculator.run (action :: later) = (calculator.after action).run later := rfl

theorem run_append (calculator : Calculator) (first second : List Action) :
    calculator.run (first ++ second) = (calculator.run first).run second :=
  List.foldl_append

@[simp] theorem panel_setPanel_self (calculator : Calculator) (id : PanelId) (panel : Panel) :
    (calculator.setPanel id panel).panel id = panel := by
  cases id <;> rfl

theorem panel_setPanel_of_ne (calculator : Calculator) {id other : PanelId} (panel : Panel)
    (differ : other ≠ id) : (calculator.setPanel other panel).panel id = calculator.panel id := by
  cases id <;> cases other <;> first | rfl | exact absurd rfl differ

/-- Replacing a panel leaves the other one as it is. -/
theorem panel_setPanel (calculator : Calculator) (id other : PanelId) (panel : Panel) :
    (calculator.setPanel other panel).panel id =
      if other = id then panel else calculator.panel id := by
  split
  · rename_i same
    rw [same, panel_setPanel_self]
  · rename_i differ
    exact panel_setPanel_of_ne calculator panel differ

@[simp] theorem setPanel_panel_self (calculator : Calculator) (id : PanelId) :
    calculator.setPanel id (calculator.panel id) = calculator := by
  cases id <;> rfl

@[simp] theorem setPanel_setPanel (calculator : Calculator) (id : PanelId) (first second : Panel) :
    (calculator.setPanel id first).setPanel id second = calculator.setPanel id second := by
  cases id <;> rfl

@[simp] theorem settings_setPanel (calculator : Calculator) (id : PanelId) (panel : Panel) :
    (calculator.setPanel id panel).settings = calculator.settings := by
  cases id <;> rfl

/-- A row of actions on one panel changes only that panel. -/
theorem run_panel (calculator : Calculator) (id : PanelId) (actions : List Panel.Action) :
    calculator.run (actions.map (.panel id)) =
      calculator.setPanel id (actions.foldl Panel.after (calculator.panel id)) := by
  induction actions generalizing calculator with
  | nil => exact (setPanel_panel_self calculator id).symm
  | cons action later recurse =>
      change (calculator.setPanel id ((calculator.panel id).after action)).run
        (later.map (.panel id)) = _
      rw [recurse, panel_setPanel_self, setPanel_setPanel, List.foldl_cons]

/-- A transfer succeeds between different panels if the one that gives has a value, and then the
other one receives it. -/
theorem transfer_eq_ok_iff {calculator next : Calculator} {source target : PanelId} :
    calculator.transfer source target = .ok next ↔
      source ≠ target ∧ ∃ value, calculator.offer source = .ok value ∧
        next = calculator.setPanel target
          ((calculator.panel target).after (.receive value calculator.settings.transferMode)) := by
  unfold transfer
  by_cases same : source = target
  · simp [same]
  · cases calculator.offer source <;> simp [same, eq_comm]

/-- A transfer is refused from a panel to itself, and if the one that gives has no value. -/
theorem transfer_eq_error_iff {calculator : Calculator} {source target : PanelId} {fault : Fault} :
    calculator.transfer source target = .error fault ↔
      source = target ∧ fault = samePanel ∨
        source ≠ target ∧ calculator.offer source = .error fault := by
  unfold transfer
  by_cases same : source = target
  · simp [same, eq_comm]
  · cases calculator.offer source <;> simp [same]

/-- An action changes a panel by what it delivers to it and in no other way. -/
theorem panel_after (calculator : Calculator) (id : PanelId) (action : Action) :
    (calculator.after action).panel id =
      match calculator.delivered id action with
      | some inner => (calculator.panel id).after inner
      | none => calculator.panel id := by
  cases action with
  | panel target inner =>
      by_cases same : target = id
      · subst same
        simp [after, attempt, delivered]
      · simp [after, attempt, delivered, same, panel_setPanel]
  | transfer source target =>
      by_cases refused : source = target
      · simp [after, attempt, transfer, delivered, refused]
      · cases given : calculator.offer source with
        | error fault => simp [after, attempt, transfer, delivered, refused, given]
        | ok value =>
            by_cases same : target = id
            · subst same
              simp [after, attempt, transfer, delivered, refused, given]
            · simp [after, attempt, transfer, delivered, refused, given, same, panel_setPanel]
  | set key value =>
      simp only [after, attempt, set, delivered]
      cases calculator.settings.set key value <;> cases id <;> rfl

/-- A transfer leaves the settings alone. -/
theorem settings_of_transfer {calculator next : Calculator} {source target : PanelId}
    (moved : calculator.transfer source target = .ok next) :
    next.settings = calculator.settings := by
  obtain ⟨_, value, _, rfl⟩ := transfer_eq_ok_iff.mp moved
  exact settings_setPanel calculator target _

/-- A panel withholds a value because nothing has been typed or because it cannot be computed. -/
theorem offer_eq_error {calculator : Calculator} {id : PanelId} {fault : Fault}
    (withheld : calculator.offer id = .error fault) :
    fault = Panel.nothingTyped ∨ fault = Panel.notComputable := by
  unfold offer Panel.offer at withheld
  split at withheld
  · cases withheld
  simp only at withheld
  split at withheld
  · cases withheld
    exact .inl rfl
  split at withheld
  · cases withheld
  · cases withheld
    exact .inr rfl

/-- A transfer fails only because it is refused. -/
theorem transfer_eq_error {calculator : Calculator} {source target : PanelId} {fault : Fault}
    (failed : calculator.transfer source target = .error fault) :
    ∃ reason, fault = .transferRefused reason := by
  rcases transfer_eq_error_iff.mp failed with ⟨_, rfl⟩ | ⟨_, withheld⟩
  · exact ⟨_, rfl⟩
  · obtain rfl | rfl := offer_eq_error withheld <;> exact ⟨_, rfl⟩

/-- Only a change of a setting changes the settings. -/
theorem settings_after (calculator : Calculator) {action : Action}
    (other : ∀ key value, action ≠ .set key value) :
    (calculator.after action).settings = calculator.settings := by
  cases action with
  | panel id inner => exact settings_setPanel calculator id _
  | transfer source target =>
      simp only [after, attempt]
      split
      · rename_i next moved
        exact settings_of_transfer moved
      · rfl
  | set key value => exact absurd rfl (other key value)

/-- A panel is what its last delivered action has made of it. -/
theorem panel_run (calculator : Calculator) (id : PanelId) (actions : List Action) :
    (calculator.run actions).panel id =
      match calculator.lastDelivered id actions with
      | some (before, inner) => before.after inner
      | none => calculator.panel id := by
  induction actions generalizing calculator with
  | nil => rfl
  | cons action later recurse =>
      change ((calculator.after action).run later).panel id = _
      rw [recurse, lastDelivered]
      cases (calculator.after action).lastDelivered id later with
      | some last => rfl
      | none =>
          rw [panel_after]
          cases calculator.delivered id action <;> rfl

end PanelCalc.Calculator
