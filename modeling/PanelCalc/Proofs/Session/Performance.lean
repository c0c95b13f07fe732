import PanelCalc.Proofs.Calculator.History
import PanelCalc.Proofs.Session.Standing

/-!
# What a session performs

A session acts on its calculator and writes to its sink. On a sink without end, what it does depends
on its script alone. On a sink that ends, it does the same up to the write that does not fit.
`Performs` says both of one step, `Performs.bind` puts steps together, and
`Session.performs_readLines` says of the lines of a script which actions they perform and how they
end.
-/

namespace PanelCalc.Session

variable {Value Result : Type}

/-! ## Steps -/

theorem bind_of_ok {first : Step Value} {next : Value → Step Result} {before middle : Session}
    {value : Value} (done : first before = .ok value middle) :
    (first >>= next) before = next value middle := by
  change EStateM.bind first next before = _
  rw [EStateM.bind, done]

theorem bind_of_error {first : Step Value} {next : Value → Step Result} {before after : Session}
    {fault : Fault} (failed : first before = .error fault after) :
    (first >>= next) before = .error fault after := by
  change EStateM.bind first next before = _
  rw [EStateM.bind, failed]

/-- A session whose sink has this much room. -/
def within (session : Session) (room : Option Nat) : Session :=
  { session with sink := { session.sink with room } }

/-- The end of a step with an answer or a fault. -/
def ending (answer : Except Fault Value) (session : Session) : EStateM.Result Fault Session Value :=
  match answer with
  | .ok value => .ok value session
  | .error fault => .error fault session

/-- What a step answers, or its fault. -/
def answer : EStateM.Result Fault Session Value → Except Fault Value
  | .ok value _ => .ok value
  | .error fault _ => .error fault

/-- The session that a step leaves. -/
def left : EStateM.Result Fault Session Value → Session
  | .ok _ session | .error _ session => session

@[simp] theorem answer_ending (given : Except Fault Value) (session : Session) :
    answer (ending given session) = given := by
  cases given <;> rfl

@[simp] theorem left_ending (given : Except Fault Value) (session : Session) :
    left (ending given session) = session := by
  cases given <;> rfl

/-- `Performs step before answer after output actions` says what a step makes of a session. On a
sink without end it gives the answer, writes the output and takes the calculator through the
actions. On a sink with room for the output it does the same. On any other one it writes what there
is room for, and fails behind a beginning of the actions. -/
structure Performs (step : Step Value) (before : Session) (answer : Except Fault Value)
    (after : Session) (output : List UInt8) (actions : List Action) : Prop where
  endless : step (before.within none) = ending answer (after.within none)
  written : after.sink.written.toList = before.sink.written.toList ++ output
  calculator : after.calculator = before.calculator.run actions
  enough : ∀ room, output.length ≤ room →
    step (before.within (some room)) = ending answer (after.within (some (room - output.length)))
  short : ∀ room, room < output.length →
    ∃ failed taken, step (before.within (some room)) = .error (.output Sink.full) failed ∧
      failed.sink.written.toList = before.sink.written.toList ++ output.take room ∧
      taken <+: actions ∧ failed.calculator = before.calculator.run taken

/-- A step that behaves like another one performs the same. -/
theorem Performs.congr {step other : Step Value} {before after : Session}
    {answer : Except Fault Value} {output : List UInt8} {actions : List Action}
    (performs : Performs other before answer after output actions)
    (same : ∀ room, step (before.within room) = other (before.within room)) :
    Performs step before answer after output actions where
  endless := (same none).trans performs.endless
  written := performs.written
  calculator := performs.calculator
  enough room fits := (same (some room)).trans (performs.enough room fits)
  short room exceeded := by
    rw [same]
    exact performs.short room exceeded

/-- A step that performs no action performs any that are refused. -/
theorem Performs.idle {step : Step Value} {before after : Session} {answer : Except Fault Value}
    {output : List UInt8} {actions : List Action}
    (performs : Performs step before answer after output [])
    (refused : before.calculator.run actions = before.calculator) :
    Performs step before answer after output actions where
  endless := performs.endless
  written := performs.written
  calculator := performs.calculator.trans refused.symm
  enough := performs.enough
  short room exceeded := by
    obtain ⟨failed, taken, stuck, cut, beginning, reached⟩ := performs.short room exceeded
    exact ⟨failed, taken, stuck, cut, beginning.trans List.nil_prefix, reached⟩

/-- Two steps in a row write their outputs and perform their actions in a row. -/
theorem Performs.bind {first : Step Value} {next : Value → Step Result}
    {before middle after : Session} {value : Value} {answer : Except Fault Result}
    {output more : List UInt8} {actions later : List Action}
    (performs : Performs first before (.ok value) middle output actions)
    (onward : Performs (next value) middle answer after more later) :
    Performs (first >>= next) before answer after (output ++ more) (actions ++ later) where
  endless := (bind_of_ok performs.endless).trans onward.endless
  written := by
    rw [onward.written, performs.written, List.append_assoc]
  calculator := by rw [onward.calculator, performs.calculator, Calculator.run_append]
  enough room fits := by
    rw [List.length_append] at fits ⊢
    rw [bind_of_ok (performs.enough room (by omega)), onward.enough _ (by omega), Nat.sub_sub]
  short room exceeded := by
    rw [List.length_append] at exceeded
    by_cases fits : output.length ≤ room
    · obtain ⟨failed, taken, stuck, cut, beginning, reached⟩ :=
        onward.short (room - output.length) (by omega)
      refine ⟨failed, actions ++ taken, ?_, ?_, ?_, ?_⟩
      · rw [bind_of_ok (performs.enough room fits), stuck]
      · rw [cut, performs.written, List.take_append, List.take_of_length_le fits,
          List.append_assoc]
      · exact (List.prefix_append_right_inj actions).mpr beginning
      · rw [reached, performs.calculator, Calculator.run_append]
    · obtain ⟨failed, taken, stuck, cut, beginning, reached⟩ := performs.short room (by omega)
      refine ⟨failed, taken, bind_of_error stuck, ?_, ?_, reached⟩
      · rw [cut, List.take_append_of_le_length (by omega)]
      · exact beginning.trans (List.prefix_append actions later)

/-- Behind a step that fails nothing is performed. -/
theorem Performs.bind_error {first : Step Value} {next : Value → Step Result}
    {before after : Session} {fault : Fault} {output : List UInt8} {actions : List Action}
    (performs : Performs first before (.error fault) after output actions) :
    Performs (first >>= next) before (.error fault) after output actions where
  endless := bind_of_error performs.endless
  written := performs.written
  calculator := performs.calculator
  enough room fits := bind_of_error (performs.enough room fits)
  short room exceeded := by
    obtain ⟨failed, taken, stuck, cut⟩ := performs.short room exceeded
    exact ⟨failed, taken, bind_of_error stuck, cut⟩

theorem performs_pure (value : Value) (before : Session) :
    Performs (pure value) before (.ok value) before [] [] where
  endless := rfl
  written := by simp
  calculator := rfl
  enough _ _ := rfl
  short _ exceeded := by simp at exceeded

theorem performs_throw (fault : Fault) (before : Session) :
    Performs (throw fault : Step Value) before (.error fault) before [] [] where
  endless := rfl
  written := by simp
  calculator := rfl
  enough _ _ := rfl
  short _ exceeded := by simp at exceeded

theorem performs_modify {change : Session → Session} {before : Session} {actions : List Action}
    (apart : ∀ room, change (before.within room) = (change before).within room)
    (sink : (change before).sink = before.sink)
    (calculator : (change before).calculator = before.calculator.run actions) :
    Performs (modify change) before (.ok ()) (change before) [] actions where
  endless := congrArg (EStateM.Result.ok ()) (apart none)
  written := by simp [sink]
  calculator := calculator
  enough room _ := congrArg (EStateM.Result.ok ()) (apart (some room))
  short _ exceeded := by simp at exceeded

/-- A session behind a write that succeeds. -/
def wrote (session : Session) (output : List UInt8) : Session :=
  { session with sink := { session.sink with written := session.sink.written ++ output } }

theorem performs_write (text : String) (before : Session) :
    Performs (write text) before (.ok ()) (before.wrote (Text.encode text)) (Text.encode text)
      [] where
  endless := rfl
  written := by simp [wrote]
  calculator := rfl
  enough room fits := by
    simp [write, Sink.write, within, wrote, ending, fits, List.take_of_length_le]
  short room exceeded := by
    have tooLong : ¬(Text.encode text).length ≤ room := Nat.not_le.mpr exceeded
    let left := (before.within (some room)).sink.write (Text.encode text)
    refine ⟨{ before with sink := left.2 }, [], ?_, ?_, List.nil_prefix, rfl⟩
    · simp [write, left, Sink.write, within, tooLong]
    · simp [left, Sink.write, within]

theorem performs_writeLine (text : String) (before : Session) :
    Performs (writeLine text) before (.ok ()) (before.wrote (Text.encode (text ++ "\n")))
      (Text.encode (text ++ "\n")) [] :=
  performs_write (text ++ "\n") before

/-- A step without an answer, and another one behind it. -/
theorem Performs.andThen {first : Step Unit} {second : Step Result} {before middle after : Session}
    {answer : Except Fault Result} {output more : List UInt8} {actions later : List Action}
    (performs : Performs first before (.ok ()) middle output actions)
    (onward : Performs second middle answer after more later) :
    Performs (first >>= fun _ => second) before answer after (output ++ more) (actions ++ later) :=
  performs.bind onward

/-- A step without an answer, which is given one. -/
theorem Performs.answering {step : Step Unit} {before after : Session} {output : List UInt8}
    {actions : List Action} (performs : Performs step before (.ok ()) after output actions)
    (answer : Value) :
    Performs (step >>= fun _ => pure answer) before (.ok answer) after output actions := by
  simpa using performs.andThen (performs_pure answer after)

/-! ## Lines -/

theorem performs_act (action : Panel.Action) (before : Session) :
    Performs (act action) before (.ok ())
      { before with calculator := before.calculator.after (.panel before.active action) } []
      [.panel before.active action] :=
  performs_modify (fun _ => rfl) rfl rfl

theorem performs_stroke (given : Stroke) (before : Session) :
    ∃ after output, Performs (stroke given) before (.ok ()) after output
      (given.action?.toList.map (.panel before.active)) ∧ after.active = before.active := by
  cases given with
  | act action => exact ⟨_, _, performs_act action before, rfl⟩
  | gap => exact ⟨_, _, performs_pure () before, rfl⟩
  | unknown char => exact ⟨_, _, performs_writeLine _ before, rfl⟩

theorem performs_strokes (strokes : List Stroke) (before : Session) :
    ∃ after output, Performs (strokes.forM stroke) before (.ok ()) after output
      ((strokes.filterMap Stroke.action?).map (.panel before.active)) ∧
        after.active = before.active := by
  induction strokes generalizing before with
  | nil => exact ⟨before, [], performs_pure () before, rfl⟩
  | cons first others recurse =>
      obtain ⟨middle, output, performs, stays⟩ := performs_stroke first before
      obtain ⟨after, more, onward, remains⟩ := recurse middle
      refine ⟨after, output ++ more, ?_, remains.trans stays⟩
      have both := performs.andThen onward
      rw [stays, ← List.map_append] at both
      cases first <;> exact both

/-- A transfer that is refused is reported, and the session goes on. -/
theorem performs_transfer (source target : PanelId) (before : Session) :
    ∃ after output, Performs (transfer source target) before (.ok ()) after output
      [.transfer source target] := by
  cases moved : before.calculator.transfer source target with
  | ok next =>
      have reached : next = before.calculator.after (.transfer source target) := by
        simp [Calculator.after, Calculator.attempt, moved]
      have performs : Performs (modify fun session => { session with calculator := next }) before
          (.ok ()) { before with calculator := next } [] [.transfer source target] :=
        performs_modify (fun _ => rfl) rfl reached
      have reported := performs_writeLine ("transferred " ++ source.name ++ " -> " ++ target.name)
        { before with calculator := next }
      refine ⟨_, _, (performs.andThen reported).congr fun room => ?_⟩
      simp only [transfer, within, moved]
      rfl
  | error fault =>
      obtain ⟨reason, rfl⟩ := Calculator.transfer_eq_error moved
      have refused : before.calculator.run [.transfer source target] = before.calculator := by
        simp [Calculator.after, Calculator.attempt, moved]
      refine ⟨_, _, ((performs_writeLine ("nothing to transfer: " ++ reason) before).idle
        refused).congr fun room => ?_⟩
      simp only [transfer, within, moved]

/-- A request of the settings that is refused is reported, and the session goes on. -/
theorem performs_set (key value : String) (before : Session) :
    ∃ after output, Performs (set key value) before (.ok ()) after output [.set key value] := by
  cases asked : before.calculator.set key value with
  | ok next =>
      have reached : next = before.calculator.after (.set key value) := by
        simp [Calculator.after, Calculator.attempt, asked]
      have performs : Performs (modify fun session => { session with
            calculator := next
            tally := session.tally.afterSet key (next ≠ session.calculator) }) before (.ok ())
          { before with
            calculator := next
            tally := before.tally.afterSet key (next ≠ before.calculator) } []
          [.set key value] :=
        performs_modify (fun _ => rfl) rfl reached
      refine ⟨_, _, performs.congr fun room => ?_⟩
      simp only [set, within, asked]
      rfl
  | error fault =>
      have refused : before.calculator.run [.set key value] = before.calculator := by
        simp [Calculator.after, Calculator.attempt, asked]
      refine ⟨_, _, ((performs_writeLine fault.message before).idle refused).congr fun room => ?_⟩
      simp only [set, within, asked]

/-- A command performs its action, and answers whether the session goes on. -/
theorem performs_obey (command : Command) (before : Session) :
    ∃ after output, Performs (obey command) before (.ok !(Line.command command).quits) after output
      ((Line.command command).actions before.active) := by
  cases command with
  | activate id =>
      exact ⟨_, _, (performs_modify (fun _ => rfl) rfl rfl).answering true⟩
  | transfer source target =>
      obtain ⟨after, output, performs⟩ := performs_transfer source target before
      exact ⟨after, output, performs.answering true⟩
  | act action => exact ⟨_, _, (performs_act action before).answering true⟩
  | set key value =>
      obtain ⟨after, output, performs⟩ := performs_set key value before
      exact ⟨after, output, performs.answering true⟩
  | incompleteSet | help | unknown name =>
      exact ⟨_, _, (performs_writeLine _ before).answering true⟩
  | redraw => exact ⟨_, _, performs_pure true before⟩
  | quit => exact ⟨_, _, performs_pure false before⟩

/-- A line performs its actions, and answers whether the session goes on. -/
theorem performs_enter (text : String) (before : Session) :
    ∃ after output, Performs (enter text) before (.ok !(Line.parse text).quits) after output
      ((Line.parse text).actions before.active) := by
  unfold enter
  cases Line.parse text with
  | command command => exact performs_obey command before
  | keys strokes =>
      obtain ⟨after, output, performs, _⟩ := performs_strokes strokes before
      exact ⟨after, output, performs.answering true⟩

theorem performs_ask (before : Session) :
    ∃ after output, Performs ask before (.ok ()) after output [] :=
  ⟨_, _, (performs_write (before.active.name ++ "> ") before).congr fun _ => rfl⟩

theorem performs_showPanels (before : Session) :
    ∃ after output, Performs showPanels before (.ok ()) after output [] :=
  ⟨_, _, (performs_writeLine (view before.calculator before.active) before).congr fun _ => rfl⟩

/-- The end of a line: if the session goes on, both panels are shown and the next line is asked
for. -/
def goOn (goesOn : Bool) : Step Bool := do
  if goesOn then
    showPanels
    ask
  return goesOn

theorem performs_goOn (goesOn : Bool) (before : Session) :
    ∃ after output, Performs (goOn goesOn) before (.ok goesOn) after output [] := by
  cases goesOn with
  | true =>
      obtain ⟨shown, view, shows⟩ := performs_showPanels before
      obtain ⟨after, question, asks⟩ := performs_ask shown
      exact ⟨after, view ++ question, shows.andThen (asks.answering true)⟩
  | false => exact ⟨before, [], performs_pure false before⟩

/-- A line that is read and is text performs its actions. -/
theorem performs_readLine {bytes : List UInt8} {text : String}
    (decoded : Text.decode? bytes = some text) (before : Session) :
    ∃ after output, Performs (readLine bytes) before (.ok !(Line.parse text).quits) after output
        ((Line.parse text).actions before.active) ∧
      after.active = (Line.parse text).activated before.active := by
  let counted : Session := { before with tally := before.tally.afterLine }
  have counts : Performs countLine before (.ok ()) counted [] [] :=
    performs_modify (fun _ => rfl) rfl rfl
  obtain ⟨entered, output, enters⟩ := performs_enter text counted
  obtain ⟨after, more, ends⟩ := performs_goOn (!(Line.parse text).quits) entered
  have whole := counts.andThen (enters.bind ends)
  rw [List.nil_append, List.nil_append, List.append_nil] at whole
  have reads : Performs (readLine bytes) before (.ok !(Line.parse text).quits) after
      (output ++ more) ((Line.parse text).actions before.active) := by
    refine whole.congr fun room => ?_
    simp only [readLine, decoded]
    rfl
  refine ⟨after, output ++ more, reads, ?_⟩
  obtain ⟨line, same, _, stands⟩ := standing_readLine reads.endless
  cases (Line.ofBytes?_of_decode decoded).symm.trans same
  calc
    after.active = ((before.within none).standing.take (Line.parse text)).active :=
      congrArg Standing.active stands
    _ = (Line.parse text).activated before.active := by
      rw [Standing.take, Standing.enter, Standing.active_run]
      rfl

/-! ## Scripts -/

/-- Whether bytes are a line that ends the session. -/
def endsSession (bytes : List UInt8) : Bool := (Line.ofBytes? bytes).any Line.quits

/-- `Garbled lines` says that some line is no text, and stands before every line that ends the
session. -/
def Garbled (lines : List (List UInt8)) : Prop :=
  ∃ bytes ∈ lines.takeWhile (!endsSession ·), Text.decode? bytes = none

/-- The lines that a session takes: up to the first one that ends it, or up to the first one that is
no text. -/
def Line.taken : List (List UInt8) → List Line
  | [] => []
  | bytes :: later =>
      match ofBytes? bytes with
      | none => []
      | some line => line :: if line.quits then [] else taken later

/-- The actions of lines. Keys and edits go to the panel that was made the active one last. -/
def Line.actionsOf (active : PanelId) : List Line → List Action
  | [] => []
  | line :: later => line.actions active ++ actionsOf (line.activated active) later

theorem Line.taken_cons_of_decode {bytes : List UInt8} {text : String}
    (decoded : Text.decode? bytes = some text) (others : List (List UInt8)) :
    taken (bytes :: others) =
      parse text :: if (parse text).quits then [] else taken others := by
  rw [taken, ofBytes?_of_decode decoded]

theorem Line.taken_cons_of_undecodable {bytes : List UInt8}
    (undecodable : Text.decode? bytes = none) (others : List (List UInt8)) :
    taken (bytes :: others) = [] := by
  simp [taken, ofBytes?, undecodable]

theorem garbled_cons_of_decode {bytes : List UInt8} {text : String}
    (decoded : Text.decode? bytes = some text) (others : List (List UInt8)) :
    Garbled (bytes :: others) ↔ (Line.parse text).quits = false ∧ Garbled others := by
  cases quits : (Line.parse text).quits <;>
    simp [Garbled, endsSession, Line.ofBytes?_of_decode decoded, decoded, quits]

theorem garbled_cons_of_undecodable {bytes : List UInt8} (undecodable : Text.decode? bytes = none)
    (others : List (List UInt8)) : Garbled (bytes :: others) := by
  refine ⟨bytes, ?_, undecodable⟩
  simp [endsSession, Line.ofBytes?, undecodable]

/-- Lines perform their actions. They fail just when they are garbled. -/
theorem performs_readLines (lines : List (List UInt8)) (before : Session) :
    ∃ answer after output, Performs (readLines lines) before answer after output
        (Line.actionsOf before.active (Line.taken lines)) ∧
      (Garbled lines → answer = .error (.input Text.notUtf8)) ∧
      (¬Garbled lines → answer = .ok ()) := by
  induction lines generalizing before with
  | nil => exact ⟨_, before, [], performs_pure () before, by simp [Garbled], fun _ => rfl⟩
  | cons bytes others recurse =>
      let rest : Bool → Step Unit := fun goesOn => if goesOn then readLines others else pure ()
      cases decoded : Text.decode? bytes with
      | none =>
          have fails : Performs (readLine bytes) before (.error (.input Text.notUtf8)) before []
              [] := (performs_throw (.input Text.notUtf8) before).congr fun room => by
            simp only [readLine, decoded]
          rw [Line.taken_cons_of_undecodable decoded]
          exact ⟨_, before, [], fails.bind_error, fun _ => rfl, fun intact =>
            absurd (garbled_cons_of_undecodable decoded others) intact⟩
      | some text =>
          obtain ⟨middle, output, reads, activated⟩ := performs_readLine decoded before
          rw [Line.taken_cons_of_decode decoded, Line.actionsOf, garbled_cons_of_decode decoded]
          cases quits : (Line.parse text).quits with
          | true =>
              rw [quits] at reads
              have ends : Performs (rest false) middle (.ok ()) middle [] [] :=
                performs_pure () middle
              exact ⟨_, middle, _, reads.bind ends, by simp, fun _ => rfl⟩
          | false =>
              rw [quits] at reads
              obtain ⟨answer, after, more, onward, fails, succeeds⟩ := recurse middle
              rw [activated] at onward
              have goes : Performs (rest true) middle answer after more
                  (Line.actionsOf ((Line.parse text).activated before.active)
                    (Line.taken others)) := onward
              exact ⟨answer, after, _, reads.bind goes, by simpa using fails,
                by simpa using succeeds⟩

/-- A session performs the actions of its script. It fails just when the script is garbled. -/
theorem performs_run (script : List UInt8) (before : Session) :
    ∃ answer after output, Performs (run script) before answer after output
        (Line.actionsOf before.active (Line.taken (Text.lines script))) ∧
      (Garbled (Text.lines script) → answer = .error (.input Text.notUtf8)) ∧
      (¬Garbled (Text.lines script) → answer = .ok ()) := by
  obtain ⟨opened, question, asks⟩ := performs_ask before
  have same : opened.active = before.active :=
    congrArg Standing.active (leaves_ask _ _ _ asks.endless)
  obtain ⟨answer, after, output, reads, ends⟩ := performs_readLines (Text.lines script) opened
  rw [same] at reads
  exact ⟨answer, after, question ++ output, asks.andThen reads, ends⟩

end PanelCalc.Session
