import PanelCalc.CommandLine
import PanelCalc.Proofs.Session.Performance
import PanelCalc.Proofs.Settings.Requests

/-!
# What a session saves

The settings that are saved after a session are put together from the settings at its end and from
a tally of two flags. `Session.saved_eq_chosen` says that they are nevertheless what a replay gives:
the settings as they were loaded, with all the changes that the user has asked for and the
calculator has accepted. A transfer mode that was forced on the session takes no part in them.
-/

namespace PanelCalc

open Settings (Change)

/-- What an action asks of the settings. -/
def Action.requests : Action → List (String × String)
  | set key value => [(key, value)]
  | panel _ _ | transfer _ _ => []

namespace Session

/-- What a line asks of the settings. -/
def Line.requests : Line → List (String × String)
  | .command (.set key value) => [(key, value)]
  | _ => []

/-- What a script asks of the settings, up to the line that ends the session. -/
def requests (script : List UInt8) : List (String × String) :=
  (linesRead script).flatMap Line.requests

/-- `Chose requests before after` says that between two standings these requests have been made of
the settings, and that the tally has kept up with the accepted ones. -/
structure Chose (requests : List (String × String)) (before after : Standing) : Prop where
  settings : after.calculator.settings = before.calculator.settings.run requests
  settingsChanged : after.tally.settingsChanged = true ↔
    before.tally.settingsChanged = true ∨
      ∃ change ∈ before.calculator.settings.changes requests, change.after ≠ change.before
  transferModeSet : after.tally.transferModeSet = true ↔
    before.tally.transferModeSet = true ∨
      "transferMode" ∈ (before.calculator.settings.changes requests).map Change.key

/-- Where neither the settings nor the tally of them has changed, nothing has been asked for. -/
theorem chose_nil {before after : Standing}
    (settings : after.calculator.settings = before.calculator.settings)
    (settingsChanged : after.tally.settingsChanged = before.tally.settingsChanged)
    (transferModeSet : after.tally.transferModeSet = before.tally.transferModeSet) :
    Chose [] before after where
  settings := settings
  settingsChanged := by simp [settingsChanged, Settings.changes]
  transferModeSet := by simp [transferModeSet, Settings.changes]

theorem Chose.append {first second : List (String × String)} {before middle after : Standing}
    (chose : Chose first before middle) (onward : Chose second middle after) :
    Chose (first ++ second) before after where
  settings := by rw [onward.settings, chose.settings, Settings.run_append]
  settingsChanged := by
    rw [onward.settingsChanged, chose.settingsChanged, chose.settings, Settings.changes_append]
    simp only [List.mem_append, or_and_right, exists_or, or_assoc]
  transferModeSet := by
    rw [onward.transferModeSet, chose.transferModeSet, chose.settings, Settings.changes_append,
      List.map_append, List.mem_append, or_assoc]

/-- What each of several steps asks for is asked for by all of them. -/
theorem chose_foldl {Item : Type} {step : Standing → Item → Standing}
    {asked : Item → List (String × String)}
    (single : ∀ standing item, Chose (asked item) standing (step standing item))
    (standing : Standing) (items : List Item) :
    Chose (items.flatMap asked) standing (items.foldl step standing) := by
  induction items generalizing standing with
  | nil => exact chose_nil rfl rfl rfl
  | cons item later recurse =>
      rw [List.flatMap_cons]
      exact (single standing item).append (recurse (step standing item))

theorem chose_set (standing : Standing) (key value : String) :
    Chose [(key, value)] standing (standing.after (.set key value)) := by
  simp only [Standing.after, Calculator.attempt, Calculator.set]
  cases accepted : standing.calculator.settings.set key value with
  | error fault =>
      constructor <;> simp [Settings.run, Settings.after, Settings.changes, accepted]
  | ok settings =>
      constructor
      case settings => simp [Settings.run, Settings.after, accepted]
      case settingsChanged =>
        -- The calculator becomes another one just when its settings do.
        have same : { standing.calculator with settings } = standing.calculator ↔
            settings = standing.calculator.settings := by
          constructor
          · exact congrArg Calculator.settings
          · rintro rfl
            rfl
        simp [Settings.changes, accepted, Tally.afterSet, same]
      case transferModeSet =>
        simp [Settings.changes, accepted, Tally.afterSet, @eq_comm _ "transferMode"]

theorem chose_after (standing : Standing) (action : Action) :
    Chose action.requests standing (standing.after action) := by
  cases action with
  | panel id action => exact chose_nil (by cases id <;> rfl) rfl rfl
  | transfer source target =>
      unfold Standing.after
      split
      · exact chose_nil rfl rfl rfl
      · rename_i next moved
        exact chose_nil (Calculator.settings_of_transfer moved) rfl rfl
  | set key value => exact chose_set standing key value

/-- The actions of a line ask for what the line asks for. -/
theorem requests_actions (line : Line) (active : PanelId) :
    (line.actions active).flatMap Action.requests = line.requests := by
  cases line with
  | command command => cases command <;> rfl
  | keys strokes =>
      have none : ∀ action ∈ (Line.keys strokes).actions active, action.requests = [] := by
        intro action member
        obtain ⟨inner, _, rfl⟩ := List.mem_map.mp member
        rfl
      exact List.flatMap_eq_nil_iff.mpr none

theorem chose_take (standing : Standing) (line : Line) :
    Chose line.requests standing (standing.take line) := by
  let counted : Standing := { standing with tally := standing.tally.afterLine }
  have opened : Chose [] standing counted := chose_nil rfl rfl rfl
  have acted := chose_foldl chose_after counted (line.actions counted.active)
  rw [requests_actions] at acted
  have activated : Chose [] (counted.run (line.actions counted.active)) (standing.take line) :=
    chose_nil rfl rfl rfl
  simpa using (opened.append acted).append activated

/-- A session that succeeds has made all the requests of its script. -/
theorem chose_of_run {script : List UInt8} {before after : Session}
    (finished : run script before = .ok () after) :
    Chose (requests script) before.standing after.standing := by
  rw [standing_run finished]
  exact chose_foldl chose_take _ _

/-- Nothing is saved just when the tally knows of nothing. -/
theorem Tally.toSave_eq_none_iff {tally : Tally} {current : Settings} {saved : TransferMode}
    {mode : Option TransferMode} :
    tally.toSave current saved mode = none ↔
      ¬tally.settingsChanged = true ∧ ¬tally.transferModeSet = true := by
  unfold toSave
  cases tally.settingsChanged <;> cases tally.transferModeSet <;> cases mode <;> simp

/-- Unless the transfer mode has been set, the saved one takes the place of the one that was forced
on the session. -/
theorem Tally.getD_toSave_of_unset {tally : Tally} {loaded chosen : Settings}
    {mode : Option TransferMode} (unset : ¬tally.transferModeSet = true)
    (kept : chosen.transferMode = loaded.transferMode)
    (idle : ¬tally.settingsChanged = true → chosen = loaded) :
    (tally.toSave (chosen.forced (mode.getD loaded.transferMode)) loaded.transferMode mode).getD
      loaded = chosen := by
  have restored : chosen.forced loaded.transferMode = chosen := by
    rw [← kept]
    rfl
  by_cases changed : tally.settingsChanged = true
  · simp only [toSave, changed, unset]
    cases mode with
    | none => exact restored
    | some mode => exact restored
  · simp [toSave, changed, unset, idle changed]

/-- A request forces a transfer mode on a session, be it the one that the settings have. -/
theorem override_eq_forced (request : CommandLine.Request) (loaded : Settings) :
    request.override loaded = loaded.forced (request.transferMode.getD loaded.transferMode) := by
  unfold CommandLine.Request.override
  cases request.transferMode <;> rfl

/-- A tally that has kept up with the requests made of settings with a forced transfer mode saves
what the requests make of the settings themselves. -/
theorem Tally.getD_toSave {tally : Tally} {loaded : Settings} {mode : Option TransferMode}
    {asked : List (String × String)}
    (changed : ¬tally.settingsChanged = true →
      (loaded.forced (mode.getD loaded.transferMode)).run asked =
        loaded.forced (mode.getD loaded.transferMode))
    (modeSet : tally.transferModeSet = true ↔
      "transferMode" ∈ (loaded.changes asked).map Change.key) :
    (tally.toSave ((loaded.forced (mode.getD loaded.transferMode)).run asked) loaded.transferMode
      mode).getD loaded = loaded.run asked := by
  rw [Settings.run_forced] at changed ⊢
  by_cases set : tally.transferModeSet = true
  · rw [if_pos (modeSet.mp set)]
    simp [toSave, set]
  · have unset := mt modeSet.mpr set
    have kept := Settings.transferMode_run unset
    rw [if_neg unset] at changed ⊢
    exact getD_toSave_of_unset set kept fun idle => Settings.eq_of_forced (changed idle) kept

section

variable {loaded : Settings} {request : CommandLine.Request} {script : List UInt8} {sink : Sink}
  {ended : Session}

/-- What the tally of a session knows, said of every accepted request of its script. -/
theorem tally_of_run
    (finished :
      run script { calculator := .start (request.override loaded), sink } = .ok () ended) :
    (¬ended.tally.settingsChanged = true ↔
      ∀ change ∈ (request.override loaded).changes (requests script),
        change.after = change.before) ∧
    (¬ended.tally.transferModeSet = true ↔
      ∀ change ∈ (request.override loaded).changes (requests script),
        change.key ≠ "transferMode") := by
  obtain ⟨_, changed, modeSet⟩ := chose_of_run finished
  simp only [standing, Calculator.start, Bool.false_eq_true, false_or] at changed modeSet
  rw [changed, modeSet]
  constructor <;> simp

/-- The settings that are saved after a session, or else those that were loaded, are the loaded ones
after all requests of the script. -/
theorem getD_toSave_of_run
    (finished :
      run script { calculator := .start (request.override loaded), sink } = .ok () ended) :
    (ended.tally.toSave ended.calculator.settings loaded.transferMode
      request.transferMode).getD loaded = loaded.run (requests script) := by
  obtain ⟨current, _, modeSet⟩ := chose_of_run finished
  obtain ⟨unchanged, _⟩ := tally_of_run finished
  simp only [standing, Calculator.start, Bool.false_eq_true, false_or] at current modeSet
  rw [override_eq_forced] at unchanged modeSet
  simp only [current, override_eq_forced]
  apply Tally.getD_toSave
  · intro idle
    exact Settings.run_eq_self (unchanged.mp idle)
  · rw [modeSet, Settings.keys_changes_forced]

end

/-- The settings that are saved after a session, or else those that were loaded, are the loaded ones
after all requests of the script; the transfer mode of this session has no part in them. Nothing is
saved just when every accepted request has found the settings as it wanted them and none has named
the transfer mode. -/
theorem saved_eq_chosen {loaded : Settings} {request : CommandLine.Request} {script : List UInt8}
    {sink : Sink} {ended : Session}
    (finished :
      run script { calculator := .start (request.override loaded), sink } = .ok () ended) :
    let saved := ended.tally.toSave ended.calculator.settings loaded.transferMode
      request.transferMode
    saved.getD loaded = loaded.run (requests script) ∧
      (saved = none ↔
        ∀ change ∈ (request.override loaded).changes (requests script),
          change.after = change.before ∧ change.key ≠ "transferMode") := by
  intro saved
  obtain ⟨unchanged, unset⟩ := tally_of_run finished
  refine ⟨getD_toSave_of_run finished, ?_⟩
  rw [Tally.toSave_eq_none_iff, unchanged, unset]
  constructor
  · rintro ⟨same, other⟩ change member
    exact ⟨same change member, other change member⟩
  · intro idle
    exact ⟨fun change member => (idle change member).1,
      fun change member => (idle change member).2⟩

/-- A theme and a transfer mode have been asked for, the second in vain, in a session that is forced
to append. What comes behind the end has no part in it. -/
theorem saved_eq_chosen_of_forced_append :
    ∃ ended, run (Text.encode
        ":set theme light\n:set transferMode none\n6x7=\n:quit\n:set haptics off")
        { calculator := .start { transferMode := .append } } = .ok () ended ∧
      (ended.tally.toSave ended.calculator.settings .overwrite (some .append)).getD {} =
        { theme := .light } := by
  let script := Text.encode
    ":set theme light\n:set transferMode none\n6x7=\n:quit\n:set haptics off"
  have succeeds : answer (run script { calculator := .start { transferMode := .append } }) =
      .ok () := by
    decide +kernel
  cases finished : run script { calculator := .start { transferMode := .append } } with
  | error fault failed =>
      rw [finished] at succeeds
      cases succeeds
  | ok value ended =>
      refine ⟨ended, rfl, ?_⟩
      have chosen := @saved_eq_chosen {} { transferMode := some .append } script {} ended finished
      exact chosen.1.trans (by decide +kernel)

end Session
end PanelCalc
