import PanelCalc.Proofs.CommandLine.Runs
import PanelCalc.Proofs.Session.Script
import PanelCalc.Proofs.Settings.Stored

/-!
# Settings from one session to the next

A program that runs a session keeps the settings chosen in it: the next one loads what the accepted
requests have made of those that were loaded. That is so for every script that can be read to its
end, and for no other one: a line that is no text ends the program before anything is saved.
`settings_kept_unless_garbled` says both.
-/

namespace PanelCalc.CommandLine

section

variable [Directories] [Json.Package] {environment : Environment} {tree : FileTree}
  {arguments : List String} {request : Request} {path : String} {script : List UInt8}

/-- What is saved after a session is what its requests make of the settings that were loaded. -/
theorem saved_of_finished (conforms : Json.Package.Conforms)
    (found : settingsPath? environment request = some path)
    (writable : Settings.Writable tree path) {ended : Session}
    (finished : Session.run script (opened environment tree request none) = .ok () ended) :
    (saved environment tree request ended).status = 0 ∧
      Settings.loadOrUsual (saved environment tree request ended).tree path =
        (Settings.loadOrUsual tree path).run (Session.requests script) := by
  have same : loaded environment tree request = Settings.loadOrUsual tree path := by
    rw [loaded, found, Option.elim_some]
  rw [← same, ← Session.getD_toSave_of_run finished]
  simp only [saved, found]
  cases chosen : ended.tally.toSave ended.calculator.settings
      (loaded environment tree request).transferMode request.transferMode with
  | none => exact ⟨rfl, same.symm⟩
  | some settings =>
      have succeeds := writable settings
      cases done : Settings.save tree path settings with
      | mk outcome after =>
          rw [done] at succeeds
          simp only at succeeds
          subst succeeds
          have kept : Settings.loadOrUsual after path = settings := by
            rw [Settings.loadOrUsual, Settings.load_save conforms done]
          simp only [done, kept, Option.getD_some, and_self]

/-- Where settings can be saved, a session keeps them unless it comes to a line that is no text: the
next session loads those that this one has loaded, with all its accepted requests. The transfer mode
forced on the session has no part in them. After a line that is no text, the files are as they
were. -/
theorem settings_kept_unless_garbled [Parser] (conforms : Json.Package.Conforms)
    (asks : Parser.read? arguments = some (.perform request)) (session : request.expression = none)
    (found : settingsPath? environment request = some path)
    (writable : Settings.Writable tree path) (script : List UInt8) :
    let ending := run environment tree arguments script
    (¬Session.Garbled (Text.lines script) →
      ending.status = 0 ∧
        Settings.loadOrUsual ending.tree path =
          (Settings.loadOrUsual tree path).run (Session.requests script)) ∧
    (Session.Garbled (Text.lines script) → ending.status = 1 ∧ ending.tree = tree) := by
  intro ending
  constructor
  · intro intact
    obtain ⟨ended, finished, _⟩ :=
      Session.run_of_intact (.start (request.override (loaded environment tree request))) intact
    simp only [ending, run_of_finished asks session finished]
    exact saved_of_finished conforms found writable finished
  · intro garbled
    obtain ⟨ended, failed⟩ :=
      Session.run_of_garbled (.start (request.override (loaded environment tree request))) garbled
    simp only [ending, run_of_failed asks session failed, and_self]

end

/-- A session that is forced to append turns the haptic feedback off. The file it finds only names a
theme; what stands behind `:quit` is no text. -/
theorem settings_kept_with_theme :
    let stored := Text.encode "\x7b\"theme\":\"light\"\x7d"
    let tree : FileTree := { entries := [(["s.json"], .file stored)] }
    let arguments := ["--settings", "s.json", "--transfer-mode", "append"]
    let script := Text.encode ":set haptics off\n:set theme blue\n:quit\n" ++ [255]
    Settings.loadOrUsual (run {} tree arguments script).tree "s.json" =
      { theme := .light, haptics := false } := by
  intro stored tree arguments script
  have writable : Settings.Writable tree "s.json" :=
    Settings.writable_iff.mpr (by decide +kernel)
  have intact : ¬Session.Garbled (Text.lines script) := by
    unfold Session.Garbled
    decide +kernel
  have kept := @settings_kept_unless_garbled _ _ {} tree arguments
    { settings := some "s.json", transferMode := some .append } "s.json" _
    Json.bundled_conforms (by decide) rfl rfl writable script
  rw [(kept.1 intact).2]
  decide +kernel

/-- A theme that has been chosen is lost behind a line that is no text, though the settings could
have been saved. -/
theorem theme_lost_behind_garbled_line :
    let script := Text.encode ":set theme light\n" ++ [255, 10]
    let ending := run {} {} ["--settings", "s.json"] script
    Settings.Writable {} "s.json" ∧
      (Session.Line.taken (Text.lines script)).flatMap Session.Line.requests =
        [("theme", "light")] ∧
      (Settings.loadOrUsual {} "s.json").run [("theme", "light")] = { theme := .light } ∧
      Settings.loadOrUsual ending.tree "s.json" = { theme := .dark } := by
  refine ⟨Settings.writable_iff.mpr ?_, ?_, ?_, ?_⟩ <;> decide +kernel

end PanelCalc.CommandLine
