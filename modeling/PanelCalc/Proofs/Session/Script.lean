import PanelCalc.Proofs.Session.Lines
import PanelCalc.Proofs.Session.Saved

/-!
# Sessions and their scripts

A session on a sink without end is nothing but its script. It fails for the one reason that a line
it has to read is no text; otherwise it leaves what the actions of its lines leave, and a tally of
them; and nothing behind the line that ends it has any part in it. `Session.faithful_run` says so of
all scripts.
-/

namespace PanelCalc

/-! ## Lines of a file -/

namespace Text

variable {Item : Type}

theorem pieces_ne_nil (cut : Item → Bool) (items : List Item) : pieces cut items ≠ [] := by
  cases items with
  | nil => simp [pieces]
  | cons item rest =>
      simp only [pieces]
      split
      · simp
      · split <;> simp

theorem pieces_append {cut : Item → Bool} {item : Item} (cuts : cut item = true)
    (before after : List Item) :
    pieces cut (before ++ item :: after) = pieces cut before ++ pieces cut after := by
  induction before with
  | nil => simp [pieces, cuts]
  | cons first rest recurse =>
      simp only [List.cons_append, pieces, recurse]
      split
      · rfl
      · cases shape : pieces cut rest with
        | nil => exact absurd shape (pieces_ne_nil cut rest)
        | cons piece others => rfl

/-- A line end keeps the lines before it apart from those behind it. -/
theorem lines_append (before after : List UInt8) :
    lines (before ++ 10 :: after) = lines (before ++ [10]) ++ lines after := by
  have ends : isLineEnd 10 = true := rfl
  have whole := pieces_append ends before after
  have closed := pieces_append ends before []
  have nonempty := pieces_ne_nil isLineEnd after
  obtain ⟨others, last, split⟩ : ∃ others last, pieces isLineEnd after = others ++ [last] :=
    ⟨_, _, (List.dropLast_concat_getLast nonempty).symm⟩
  simp [lines, whole, closed, pieces, split, ← List.append_assoc]

end Text

namespace Session

/-! ## The end of a session -/

/-- Lines behind one that ends the session are not read. -/
theorem readLines_append {lines : List (List UInt8)}
    (ends : ∃ bytes ∈ lines, endsSession bytes = true)
    (others : List (List UInt8)) (before : Session) :
    readLines (lines ++ others) before = readLines lines before := by
  induction lines generalizing before with
  | nil => simp at ends
  | cons bytes later recurse =>
      let rest : List (List UInt8) → Bool → Step Unit := fun lines goesOn =>
        if goesOn then readLines lines else pure ()
      change (readLine bytes >>= rest (later ++ others)) before =
        (readLine bytes >>= rest later) before
      cases done : readLine bytes before with
      | error fault failed => rw [bind_of_error done, bind_of_error done]
      | ok goesOn middle =>
          rw [bind_of_ok done, bind_of_ok done]
          cases goesOn with
          | false => rfl
          | true =>
              obtain ⟨line, read, answer, _⟩ := standing_readLine done
              have notHere : endsSession bytes = false := by
                simpa [endsSession, read] using answer.symm
              have inLater : ∃ bytes ∈ later, endsSession bytes = true := by
                simpa [notHere] using ends
              exact recurse inLater middle

/-- What stands in a script behind a line that ends the session has no part in it. -/
theorem run_append {before : List UInt8}
    (ends : ∃ bytes ∈ Text.lines (before ++ [10]), endsSession bytes = true)
    (behind : List UInt8) (session : Session) :
    run (before ++ 10 :: behind) session = run (before ++ [10]) session := by
  have same : readLines (Text.lines (before ++ 10 :: behind)) =
      readLines (Text.lines (before ++ [10])) := by
    funext middle
    rw [Text.lines_append]
    exact readLines_append ends _ middle
  simp only [run, same]

/-! ## The tally -/

theorem Standing.lines_after (standing : Standing) (action : Action) :
    (standing.after action).tally.lines = standing.tally.lines := by
  unfold after
  split
  · rfl
  · cases action <;> rfl

theorem Standing.lines_run (standing : Standing) (actions : List Action) :
    (standing.run actions).tally.lines = standing.tally.lines := by
  induction actions generalizing standing with
  | nil => rfl
  | cons action later recurse => exact (recurse _).trans (standing.lines_after action)

/-- Every line that is taken is counted. -/
theorem Standing.lines_take (standing : Standing) (line : Line) :
    (standing.take line).tally.lines = standing.tally.lines + 1 :=
  lines_run _ _

theorem Standing.lines_foldl_take (standing : Standing) (lines : List Line) :
    (lines.foldl take standing).tally.lines = standing.tally.lines + lines.length := by
  induction lines generalizing standing with
  | nil => rfl
  | cons line later recurse =>
      rw [List.foldl_cons, recurse, lines_take, List.length_cons]
      omega

/-- The lines that a session takes from an intact script are those that it reads. -/
theorem Line.taken_of_intact {lines : List (List UInt8)} (intact : ¬Garbled lines) :
    taken lines = upToQuit (lines.filterMap ofBytes?) := by
  induction lines with
  | nil => rfl
  | cons bytes later recurse =>
      cases decoded : Text.decode? bytes with
      | none => exact absurd (garbled_cons_of_undecodable decoded later) intact
      | some text =>
          rw [garbled_cons_of_decode decoded, not_and] at intact
          rw [taken_cons_of_decode decoded, List.filterMap_cons_some (ofBytes?_of_decode decoded),
            upToQuit]
          cases quits : (parse text).quits with
          | true => rfl
          | false =>
              rw [← recurse (intact quits)]
              rfl

/-- What a session on a sink without end makes of a script. -/
structure Faithful (calculator : Calculator) (script : List UInt8) : Prop where
  /-- It fails if a line that it has to read is no text. -/
  garbled : Garbled (Text.lines script) →
    ∃ ended, run script { calculator } = .error (.input Text.notUtf8) ended
  /-- Otherwise it succeeds. The calculator has then been taken through the actions of the lines up
  to the one that ends the session. All these lines are counted, and the tally knows whether a
  request has given a setting another value than it had, and whether one has set the transfer
  mode. -/
  intact : ¬Garbled (Text.lines script) →
    ∃ ended, run script { calculator } = .ok () ended ∧
      ended.calculator = calculator.run (Line.actionsOf .top (linesRead script)) ∧
      ended.tally.lines = (linesRead script).length ∧
      (ended.tally.settingsChanged = true ↔
        ∃ change ∈ calculator.settings.changes (requests script), change.after ≠ change.before) ∧
      (ended.tally.transferModeSet = true ↔
        ∃ change ∈ calculator.settings.changes (requests script), change.key = "transferMode")
  /-- A line that it has to read is one before which there is no farewell. -/
  unreadable : Garbled (Text.lines script) ↔
    ∃ before bytes behind, Text.lines script = before ++ bytes :: behind ∧
      (∀ earlier ∈ before, ¬IsFarewell earlier) ∧ Text.decode? bytes = none
  /-- The lines that it has read are what the words and the keys of the script mean, up to the first
  farewell. -/
  heard : ¬Garbled (Text.lines script) → Line.Heard (Text.lines script) (linesRead script)
  /-- What stands behind a farewell may be anything. -/
  ends : ∀ before behind other, script = before ++ 10 :: behind →
    (∃ bytes ∈ Text.lines (before ++ [10]), IsFarewell bytes) →
      run (before ++ 10 :: other) { calculator } = run script { calculator }

/-- A session that has to read a line that is no text fails. -/
theorem run_of_garbled (calculator : Calculator) {script : List UInt8}
    (garbled : Garbled (Text.lines script)) :
    ∃ ended, run script { calculator } = .error (.input Text.notUtf8) ended := by
  obtain ⟨answer, after, output, performs, fails, _⟩ := performs_run script { calculator }
  have endless : run script { calculator } = ending answer (after.within none) := performs.endless
  rw [endless, fails garbled]
  exact ⟨_, rfl⟩

/-- A session that only reads lines that are texts succeeds. -/
theorem run_of_intact (calculator : Calculator) {script : List UInt8}
    (intact : ¬Garbled (Text.lines script)) :
    ∃ ended, run script { calculator } = .ok () ended ∧
      ended.calculator = calculator.run (Line.actionsOf .top (linesRead script)) := by
  obtain ⟨answer, after, output, performs, _, succeeds⟩ := performs_run script { calculator }
  have endless : run script { calculator } = ending answer (after.within none) := performs.endless
  rw [succeeds intact] at endless
  have taken : Line.taken (Text.lines script) = linesRead script := Line.taken_of_intact intact
  refine ⟨_, endless, ?_⟩
  rw [← taken]
  exact performs.calculator

/-- Every session on a sink without end is faithful to its script. -/
theorem faithful_run (calculator : Calculator) (script : List UInt8) :
    Faithful calculator script := by
  constructor
  case garbled => exact run_of_garbled calculator
  case intact =>
    intro intact
    obtain ⟨ended, endless, reached⟩ := run_of_intact calculator intact
    have stands := standing_run endless
    have chose := chose_of_run endless
    refine ⟨ended, endless, reached, ?_, ?_, ?_⟩
    · have counted := congrArg (·.tally.lines) stands
      simpa [Standing.lines_foldl_take, standing] using counted
    · simpa [standing] using chose.settingsChanged
    · simpa [standing, List.mem_map] using chose.transferModeSet
  case unreadable => exact garbled_iff
  case heard =>
    intro intact
    exact Line.heard_iff.mpr ⟨intact, rfl⟩
  case ends =>
    rintro before behind other rfl ⟨bytes, member, farewell⟩
    have ends : ∃ bytes ∈ Text.lines (before ++ [10]), endsSession bytes = true :=
      ⟨bytes, member, (endsSession_iff bytes).mpr farewell⟩
    exact (run_append ends other _).trans (run_append ends behind _).symm

/-- A setting without a value is a line like any other; further words behind `:q` do not matter, and
neither does a byte that is no text behind its line. -/
example :
    linesRead (Text.encode ":set theme\n:q now\n" ++ [255]) =
      [.command .incompleteSet, .command .quit] := by
  decide +kernel

end Session
end PanelCalc
