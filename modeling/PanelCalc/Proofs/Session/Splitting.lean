import Mathlib.Data.List.DropRight
import PanelCalc.Proofs.Session.Keys

/-!
# Splitting key lines

A row of keys may be entered on one line or on several. Wherever it is split, be it at white space,
in the middle of a number or between an evaluation and what is typed behind it, the session comes to
the same: `Session.enter_append`.
-/

namespace PanelCalc

namespace Text

/-- A trimmed text begins with the first character of the text that is no white space. -/
theorem head?_trim (text : String) : (trim text).toList.head? = (solid text).head? := by
  rw [← solid_trim]
  cases shape : (trim text).toList with
  | nil => simp [solid, shape]
  | cons char others =>
      have begins : char :: others <+: text.toList.dropWhile isBlank := by
        rw [← shape, trim, String.toList_ofList]
        exact List.rdropWhile_prefix isBlank _
      obtain ⟨behind, whole⟩ := begins
      have visible : isBlank char = false := by
        have stops := List.head?_dropWhile_not isBlank text.toList
        simpa [← whole] using stops
      simp [solid, shape, visible]

theorem solid_append (front back : String) : solid (front ++ back) = solid front ++ solid back := by
  rw [solid, String.toList_append, List.filter_append, solid, solid]

end Text

namespace Session

/-! ## Lines of keys -/

/-- Whether a line is a command: but for white space, it begins with a colon. -/
def IsCommand (line : String) : Prop := (Text.trim line).toList.head? = some ':'

/-- Two lines of keys in a row are a line of keys. -/
theorem not_isCommand_append {front back : String} (frontKeys : ¬IsCommand front)
    (backKeys : ¬IsCommand back) : ¬IsCommand (front ++ back) := by
  unfold IsCommand at *
  rw [Text.head?_trim] at *
  rw [Text.solid_append, List.head?_append]
  cases first : (Text.solid front).head? with
  | none => exact backKeys
  | some char => rwa [first] at frontKeys

/-- White space between keys adds nothing to what they do. -/
theorem strokes_solid (chars : List Char) :
    ((chars.filter (!Text.isBlank ·)).map Stroke.ofChar).forM stroke =
      (chars.map Stroke.ofChar).forM stroke := by
  induction chars with
  | nil => rfl
  | cons char others recurse =>
      cases blank : Text.isBlank char with
      | true =>
          rw [List.filter_cons_of_neg (by simp [blank]), recurse, List.map_cons,
            ofChar_of_isBlank blank]
          rfl
      | false =>
          rw [List.filter_cons_of_pos (by simp [blank])]
          exact congrArg (fun later => stroke (Stroke.ofChar char) >>= fun _ => later) recurse

/-- A line of keys does what its keys do, one after another, whatever white space it contains. -/
theorem enter_of_not_isCommand {line : String} (keys : ¬IsCommand line) :
    enter line = do
      ((Text.solid line).map Stroke.ofChar).forM stroke
      return true := by
  have parsed : Line.parse line = .keys ((Text.trim line).toList.map Stroke.ofChar) := by
    unfold Line.parse
    split
    · rename_i rest colon
      exact absurd (congrArg List.head? colon) keys
    · rfl
  unfold enter
  rw [parsed, ← Text.solid_trim, Text.solid, strokes_solid]

/-- Two lines of keys in a row do what the one line does that they make up. -/
theorem enter_append_of_not_isCommand {front back : String} (frontKeys : ¬IsCommand front)
    (backKeys : ¬IsCommand back) :
    enter (front ++ back) = (enter front >>= fun _ => enter back) := by
  rw [enter_of_not_isCommand frontKeys, enter_of_not_isCommand backKeys,
    enter_of_not_isCommand (not_isCommand_append frontKeys backKeys), Text.solid_append,
    List.map_append, List.forM_eq_forM, List.forM_append]
  simp only [bind_assoc, pure_bind]

/-! ## What keys leave as it is -/

/-- `Confined before after` says that a session has changed in its active panel at most, and has
written something behind what had been written before. -/
structure Confined (before after : Session) : Prop where
  active : after.active = before.active
  others : ∀ id, id ≠ before.active → after.calculator.panel id = before.calculator.panel id
  settings : after.calculator.settings = before.calculator.settings
  tally : after.tally = before.tally
  written : before.sink.written.toList <+: after.sink.written.toList

theorem Confined.refl (session : Session) : Confined session session :=
  ⟨rfl, fun _ _ => rfl, rfl, rfl, List.prefix_rfl⟩

theorem Confined.trans {before middle after : Session} (first : Confined before middle)
    (second : Confined middle after) : Confined before after where
  active := second.active.trans first.active
  others id other := by
    rw [second.others id (first.active ▸ other), first.others id other]
  settings := second.settings.trans first.settings
  tally := second.tally.trans first.tally
  written := first.written.trans second.written

/-- A sink without end takes whatever is written. -/
theorem write_of_endless (text : String) {session : Session} (endless : session.sink.room = none) :
    write text session = .ok () { session with
      sink := { session.sink with written := session.sink.written ++ Text.encode text } } := by
  simp [write, Sink.write, endless]

/-- A key acts on the active panel, or it is reported as unknown. -/
theorem confined_stroke (given : Stroke) {before : Session} (endless : before.sink.room = none) :
    ∃ after, stroke given before = .ok () after ∧ after.sink.room = none ∧
      Confined before after := by
  cases given with
  | act action =>
      refine ⟨_, rfl, endless, ?_⟩
      constructor
      case others =>
        intro id other
        exact Calculator.panel_setPanel_of_ne _ _ other.symm
      case settings => exact Calculator.settings_setPanel _ _ _
      case written => exact List.prefix_rfl
      all_goals rfl
  | gap => exact ⟨before, rfl, endless, .refl before⟩
  | unknown char =>
      refine ⟨_, write_of_endless _ endless, endless, rfl, fun _ _ => rfl, rfl, rfl, ?_⟩
      simp

/-- A row of keys acts on the active panel, and reports those that are unknown. -/
theorem confined_strokes (strokes : List Stroke) {before : Session}
    (endless : before.sink.room = none) :
    ∃ after, strokes.forM stroke before = .ok () after ∧ after.sink.room = none ∧
      Confined before after := by
  induction strokes generalizing before with
  | nil => exact ⟨before, rfl, endless, .refl before⟩
  | cons first others recurse =>
      obtain ⟨middle, struck, middleEndless, confined⟩ := confined_stroke first endless
      obtain ⟨after, onward, afterEndless, later⟩ := recurse middleEndless
      exact ⟨after, bind_eq_ok_iff.mpr ⟨(), middle, struck, onward⟩, afterEndless,
        confined.trans later⟩

/-- A line of keys is taken, and the session goes on. -/
theorem confined_enter {line : String} (keys : ¬IsCommand line) {before : Session}
    (endless : before.sink.room = none) :
    ∃ after, enter line before = .ok true after ∧ after.sink.room = none ∧
      Confined before after := by
  obtain ⟨after, struck, afterEndless, confined⟩ :=
    confined_strokes ((Text.solid line).map Stroke.ofChar) endless
  refine ⟨after, ?_, afterEndless, confined⟩
  rw [enter_of_not_isCommand keys]
  exact bind_eq_ok_iff.mpr ⟨(), after, struck, rfl⟩

/-- Where a row of keys is split into lines does not matter. On any sink, the two lines in a row do
what the one line does; on a sink without end, all three are taken, the session goes on, and nothing
but the active panel has changed, apart from what has been written. -/
theorem enter_append {front back : String} (frontKeys : ¬IsCommand front)
    (backKeys : ¬IsCommand back) :
    ¬IsCommand (front ++ back) ∧
      enter (front ++ back) = (enter front >>= fun _ => enter back) ∧
      ∀ before : Session, before.sink.room = none →
        ∃ middle after, enter front before = .ok true middle ∧ enter back middle = .ok true after ∧
          enter (front ++ back) before = .ok true after ∧
          Confined before middle ∧ Confined before after := by
  have joined := enter_append_of_not_isCommand frontKeys backKeys
  refine ⟨not_isCommand_append frontKeys backKeys, joined, fun before endless => ?_⟩
  obtain ⟨middle, entered, middleEndless, confined⟩ := confined_enter frontKeys endless
  obtain ⟨after, onward, _, later⟩ := confined_enter backKeys middleEndless
  refine ⟨middle, after, entered, onward, ?_, confined, confined.trans later⟩
  rw [joined]
  exact bind_eq_ok_iff.mpr ⟨true, middle, entered, onward⟩

/-- A line may be split behind a result and an unknown key, in front of white space and of the sign
that computes on with the result. -/
theorem enter_append_of_result :
    ¬IsCommand " 1+2=y" ∧ ¬IsCommand "\u00a0x4" ∧
      enter " 1+2=y\u00a0x4" = (enter " 1+2=y" >>= fun _ => enter "\u00a0x4") ∧
      ∃ middle after, enter " 1+2=y" { calculator := {} } = .ok true middle ∧
        enter "\u00a0x4" middle = .ok true after ∧
        enter " 1+2=y\u00a0x4" { calculator := {} } = .ok true after ∧
        Confined { calculator := {} } middle ∧ Confined { calculator := {} } after := by
  have frontKeys : ¬IsCommand " 1+2=y" := by unfold IsCommand; decide
  have backKeys : ¬IsCommand "\u00a0x4" := by unfold IsCommand; decide
  obtain ⟨_, joined, endless⟩ := enter_append frontKeys backKeys
  exact ⟨frontKeys, backKeys, joined, endless { calculator := {} } rfl⟩

end Session
end PanelCalc
