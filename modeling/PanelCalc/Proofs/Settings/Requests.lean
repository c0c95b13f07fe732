import PanelCalc.Proofs.Outcome
import PanelCalc.Settings

/-!
# Requests for settings

Settings after a row of requests, each a key and a value, of which the refused ones are left out.
`Settings.changes` lists the accepted ones with what they found and left. Which requests are
accepted does not depend on the settings, and a transfer mode that is forced on the settings at the
start is still forced at the end unless an accepted request has set the mode:
`Settings.run_forced`.
-/

namespace PanelCalc.Settings

/-- Which values the settings take. Capitals do not count in a value. -/
inductive Takes : String → String → Prop
  | transferMode {value : String} {mode : TransferMode} :
      Text.lowerAscii value = mode.name → Takes "transferMode" value
  | theme {value : String} {theme : Theme} :
      Text.lowerAscii value = theme.name → Takes "theme" value
  | haptics {value : String} :
      Text.lowerAscii value ∈ ["true", "on", "1", "false", "off", "0"] → Takes "haptics" value

theorem parseTransferMode_isOk_iff {value : String} :
    (∃ mode, TransferMode.parse value = .ok mode) ↔
      ∃ mode : TransferMode, Text.lowerAscii value = mode.name := by
  unfold TransferMode.parse TransferMode.ofName?
  constructor
  · rintro ⟨mode, parsed⟩
    repeat' split at parsed
    all_goals grind [TransferMode.name]
  · rintro ⟨mode, named⟩
    cases mode <;> exact ⟨_, by rw [named]; rfl⟩

theorem parseTheme_isOk_iff {value : String} :
    (∃ theme, Theme.parse value = .ok theme) ↔
      ∃ theme : Theme, Text.lowerAscii value = theme.name := by
  unfold Theme.parse Theme.ofName?
  constructor
  · rintro ⟨theme, parsed⟩
    repeat' split at parsed
    all_goals grind [Theme.name]
  · rintro ⟨theme, named⟩
    cases theme <;> exact ⟨_, by rw [named]; rfl⟩

theorem parseHaptics_isOk_iff {value : String} :
    (∃ haptics, parseHaptics value = .ok haptics) ↔
      Text.lowerAscii value ∈ ["true", "on", "1", "false", "off", "0"] := by
  unfold parseHaptics
  constructor
  · rintro ⟨haptics, parsed⟩
    grind
  · intro member
    simp only [List.mem_cons, List.not_mem_nil, or_false] at member
    obtain same | same | same | same | same | same := member <;>
      exact ⟨_, by rw [same]; rfl⟩

/-- Requests are accepted for the values that settings take, whatever the settings are. -/
theorem set_isOk_iff {settings : Settings} {key value : String} :
    (∃ next, settings.set key value = .ok next) ↔ Takes key value := by
  constructor
  · rintro ⟨next, accepted⟩
    unfold set at accepted
    split at accepted
    · rename_i isMode
      obtain ⟨mode, parsed, _⟩ := bind_eq_ok_iff.mp accepted
      obtain ⟨named, same⟩ := parseTransferMode_isOk_iff.mp ⟨mode, parsed⟩
      exact isMode ▸ .transferMode same
    split at accepted
    · rename_i isTheme
      obtain ⟨theme, parsed, _⟩ := bind_eq_ok_iff.mp accepted
      obtain ⟨named, same⟩ := parseTheme_isOk_iff.mp ⟨theme, parsed⟩
      exact isTheme ▸ .theme same
    split at accepted
    · rename_i isHaptics
      obtain ⟨haptics, parsed, _⟩ := bind_eq_ok_iff.mp accepted
      exact isHaptics ▸ .haptics (parseHaptics_isOk_iff.mp ⟨haptics, parsed⟩)
    · cases accepted
  · intro takes
    cases takes with
    | transferMode same =>
        obtain ⟨mode, parsed⟩ := parseTransferMode_isOk_iff.mpr ⟨_, same⟩
        exact ⟨_, by rw [set, if_pos rfl, parsed]; rfl⟩
    | theme same =>
        obtain ⟨theme, parsed⟩ := parseTheme_isOk_iff.mpr ⟨_, same⟩
        exact ⟨_, by rw [set, if_neg (by decide), if_pos rfl, parsed]; rfl⟩
    | haptics member =>
        obtain ⟨haptics, parsed⟩ := parseHaptics_isOk_iff.mpr member
        exact ⟨_, by rw [set, if_neg (by decide), if_neg (by decide), if_pos rfl, parsed]; rfl⟩

/-- The settings after a request; a refused one leaves them as they are. -/
def after (settings : Settings) (request : String × String) : Settings :=
  match settings.set request.1 request.2 with
  | .ok next => next
  | .error _ => settings

/-- The settings after a row of requests. -/
def run (settings : Settings) (requests : List (String × String)) : Settings :=
  requests.foldl after settings

/-- A request that has been accepted. -/
structure Change where
  key : String
  before : Settings
  after : Settings
  deriving DecidableEq, Repr

/-- The accepted ones of a row of requests. -/
def changes (settings : Settings) : List (String × String) → List Change
  | [] => []
  | (key, value) :: later =>
      match settings.set key value with
      | .ok next => ⟨key, settings, next⟩ :: changes next later
      | .error _ => changes settings later

theorem run_cons (settings : Settings) (request : String × String)
    (later : List (String × String)) :
    settings.run (request :: later) = (settings.after request).run later := rfl

theorem run_append (settings : Settings) (first second : List (String × String)) :
    settings.run (first ++ second) = (settings.run first).run second := by
  simp [run]

theorem changes_append (settings : Settings) (first second : List (String × String)) :
    settings.changes (first ++ second) =
      settings.changes first ++ (settings.run first).changes second := by
  induction first generalizing settings with
  | nil => rfl
  | cons request later recurse =>
      obtain ⟨key, value⟩ := request
      simp only [List.cons_append, changes, run, List.foldl_cons, after]
      cases settings.set key value with
      | error fault => exact recurse settings
      | ok next => exact congrArg (_ :: ·) (recurse next)

/-- Settings that no accepted request has changed are as they were. -/
theorem run_eq_self {settings : Settings} {requests : List (String × String)}
    (idle : ∀ change ∈ settings.changes requests, change.after = change.before) :
    settings.run requests = settings := by
  induction requests generalizing settings with
  | nil => rfl
  | cons request later recurse =>
      obtain ⟨key, value⟩ := request
      simp only [changes, run, List.foldl_cons, after] at idle ⊢
      cases accepted : settings.set key value with
      | error fault =>
          rw [accepted] at idle
          exact recurse idle
      | ok next =>
          rw [accepted, List.forall_mem_cons] at idle
          have same : next = settings := idle.1
          subst same
          exact recurse idle.2

/-! ## A forced transfer mode -/

/-- Settings with a transfer mode that is forced on them. -/
def forced (settings : Settings) (mode : TransferMode) : Settings :=
  { settings with transferMode := mode }

/-- Settings that differ in nothing but a forced transfer mode are told apart by their own modes. -/
theorem eq_of_forced {first second : Settings} {mode : TransferMode}
    (same : first.forced mode = second.forced mode)
    (modes : first.transferMode = second.transferMode) : first = second := by
  have restored := congrArg (·.forced first.transferMode) same
  change first = second.forced first.transferMode at restored
  rw [modes] at restored
  exact restored

/-- Setting the transfer mode makes up for the one that was forced. -/
theorem set_forced_transferMode (settings : Settings) (mode : TransferMode) (value : String) :
    (settings.forced mode).set "transferMode" value = settings.set "transferMode" value := rfl

/-- Setting anything else leaves the transfer mode forced. -/
theorem set_forced_of_ne (settings : Settings) (mode : TransferMode) {key : String}
    (other : key ≠ "transferMode") (value : String) :
    (settings.forced mode).set key value = (settings.set key value).map (·.forced mode) := by
  by_cases theme : key = "theme"
  · subst theme
    simp only [set, forced]
    cases Theme.parse value <;> rfl
  · by_cases haptics : key = "haptics"
    · subst haptics
      simp only [set, forced]
      cases parseHaptics value <;> rfl
    · simp [set, other, theme, haptics, Except.map]

/-- The keys that are set do not depend on a forced transfer mode. -/
theorem keys_changes_forced (settings : Settings) (mode : TransferMode)
    (requests : List (String × String)) :
    ((settings.forced mode).changes requests).map Change.key =
      (settings.changes requests).map Change.key := by
  induction requests generalizing settings with
  | nil => rfl
  | cons request later recurse =>
      obtain ⟨key, value⟩ := request
      by_cases isMode : key = "transferMode"
      · subst isMode
        simp only [changes, set_forced_transferMode]
        cases settings.set "transferMode" value with
        | error fault => exact recurse settings
        | ok next => rfl
      · simp only [changes, set_forced_of_ne settings mode isMode]
        cases settings.set key value with
        | error fault => exact recurse settings
        | ok next => exact congrArg (key :: ·) (recurse next)

/-- A forced transfer mode lasts until the mode is set, and leaves no trace if it is. -/
theorem run_forced (settings : Settings) (mode : TransferMode)
    (requests : List (String × String)) :
    (settings.forced mode).run requests =
      if "transferMode" ∈ (settings.changes requests).map Change.key then settings.run requests
      else (settings.run requests).forced mode := by
  induction requests generalizing settings with
  | nil => rfl
  | cons request later recurse =>
      obtain ⟨key, value⟩ := request
      by_cases isMode : key = "transferMode"
      · subst isMode
        cases accepted : settings.set "transferMode" value with
        | error fault =>
            simpa only [changes, run_cons, after, set_forced_transferMode, accepted]
              using recurse settings
        | ok next => simp [changes, run_cons, after, set_forced_transferMode, accepted]
      · have forced := set_forced_of_ne settings mode isMode value
        cases accepted : settings.set key value with
        | error fault =>
            rw [accepted] at forced
            simpa only [changes, run_cons, after, forced, accepted, Except.map]
              using recurse settings
        | ok next =>
            rw [accepted] at forced
            simpa [changes, run_cons, after, forced, accepted, Except.map, Ne.symm isMode]
              using recurse next

/-- The transfer mode is as it was if no accepted request has set it. -/
theorem transferMode_run {settings : Settings} {requests : List (String × String)}
    (unset : "transferMode" ∉ (settings.changes requests).map Change.key) :
    (settings.run requests).transferMode = settings.transferMode := by
  have kept := settings.run_forced settings.transferMode requests
  rw [if_neg unset] at kept
  change settings.run requests = _ at kept
  rw [kept]
  rfl

end PanelCalc.Settings
