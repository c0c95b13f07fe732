import PanelCalc.Session.Run

/-!
# Sessions apart from their output

A session writes all the time, and fails when its output does. Apart from that it comes to what its
lines stand for: every line stands for actions of the calculator, and `Session.standing_run` says
that a session which succeeds has taken exactly these, up to the line that ends it.
-/

namespace PanelCalc.Session

variable {Value Result : Type}

/-! ## Steps -/

/-- Two steps in a row succeed just when both do. -/
theorem bind_eq_ok_iff {first : Step Value} {next : Value → Step Result} {before after : Session}
    {result : Result} :
    (first >>= next) before = .ok result after ↔
      ∃ value middle, first before = .ok value middle ∧ next value middle = .ok result after := by
  change EStateM.bind first next before = _ ↔ _
  unfold EStateM.bind
  constructor
  · intro run
    cases done : first before with
    | error fault failed =>
        rw [done] at run
        cases run
    | ok value middle =>
        rw [done] at run
        exact ⟨value, middle, rfl, run⟩
  · rintro ⟨value, middle, done, run⟩
    rw [done]
    exact run

/-- A session apart from its output. -/
structure Standing where
  calculator : Calculator
  active : PanelId
  tally : Tally
  deriving DecidableEq, Repr

/-- What a session has come to, apart from its output. -/
def standing (session : Session) : Standing :=
  ⟨session.calculator, session.active, session.tally⟩

/-- `Leaves step effect` says that a step which succeeds has this effect, apart from its output. -/
def Leaves (step : Step Value) (effect : Standing → Standing) : Prop :=
  ∀ before value after, step before = .ok value after → after.standing = effect before.standing

theorem Leaves.bind {first : Step Value} {next : Value → Step Result}
    {effect later : Standing → Standing} (leaves : Leaves first effect)
    (onward : ∀ value, Leaves (next value) later) :
    Leaves (first >>= next) (later ∘ effect) := by
  intro before result after run
  obtain ⟨value, middle, done, rest⟩ := bind_eq_ok_iff.mp run
  rw [onward value middle result after rest, leaves before value middle done]
  rfl

theorem leaves_pure (value : Value) : Leaves (pure value) id := by
  rintro before value after ⟨⟩
  rfl

theorem leaves_modify {change : Session → Session} {effect : Standing → Standing}
    (same : ∀ session, (change session).standing = effect session.standing) :
    Leaves (modify change) effect := by
  rintro before value after ⟨⟩
  exact same before

/-- Writing leaves everything as it is. -/
theorem leaves_write (text : String) : Leaves (write text) id := by
  intro before value after run
  simp only [write] at run
  split at run
  · cases run
    rfl
  · cases run

theorem leaves_ask : Leaves ask id := by
  intro before value after run
  exact leaves_write _ before value after run

theorem leaves_showPanels : Leaves showPanels id := by
  intro before value after run
  exact leaves_write _ before value after run

/-! ## Actions and lines -/

/-- The standing after an action, which is tallied if it sets a setting. -/
def Standing.after (standing : Standing) (action : Action) : Standing :=
  match standing.calculator.attempt action with
  | .error _ => standing
  | .ok next =>
      { standing with
        calculator := next
        tally := match action with
          | .set key _ => standing.tally.afterSet key (next ≠ standing.calculator)
          | .panel _ _ | .transfer _ _ => standing.tally }

/-- The standing after a row of actions. -/
def Standing.run (standing : Standing) (actions : List Action) : Standing :=
  actions.foldl after standing

/-- The panel that is the active one behind a command. -/
def Command.activated (active : PanelId) : Command → PanelId
  | activate id => id
  | _ => active

/-- The action of a command. -/
def Command.action? (active : PanelId) : Command → Option Action
  | transfer source target => some (.transfer source target)
  | act action => some (.panel active action)
  | set key value => some (.set key value)
  | activate _ | incompleteSet | redraw | help | quit | unknown _ => none

/-- The action of a stroke. -/
def Stroke.action? : Stroke → Option Panel.Action
  | act action => some action
  | gap | unknown _ => none

/-- The panel that is the active one behind a line. -/
def Line.activated (active : PanelId) : Line → PanelId
  | .command given => given.activated active
  | .keys _ => active

/-- The actions of a line. -/
def Line.actions (active : PanelId) : Line → List Action
  | .command given => (given.action? active).toList
  | .keys strokes => (strokes.filterMap Stroke.action?).map (.panel active)

/-- Whether a line ends the session. -/
def Line.quits : Line → Bool
  | .command .quit => true
  | _ => false

/-- The standing after what a line stands for. -/
def Standing.enter (line : Line) (standing : Standing) : Standing :=
  let acted := standing.run (line.actions standing.active)
  { acted with active := line.activated acted.active }

/-- The standing after a line, which is counted. -/
def Standing.take (standing : Standing) (line : Line) : Standing :=
  { standing with tally := standing.tally.afterLine }.enter line

theorem Standing.active_after (standing : Standing) (action : Action) :
    (standing.after action).active = standing.active := by
  unfold after
  split <;> rfl

theorem Standing.active_run (standing : Standing) (actions : List Action) :
    (standing.run actions).active = standing.active := by
  induction actions generalizing standing with
  | nil => rfl
  | cons action later recurse => exact (recurse _).trans (standing.active_after action)

theorem leaves_act (action : Panel.Action) :
    Leaves (act action) fun standing => standing.after (.panel standing.active action) :=
  leaves_modify fun _ => rfl

theorem leaves_stroke (stroke : Stroke) :
    Leaves (Session.stroke stroke) fun standing =>
      standing.run (stroke.action?.toList.map (.panel standing.active)) := by
  cases stroke with
  | act action => exact leaves_act action
  | gap => exact leaves_pure ()
  | unknown char => exact leaves_write _

theorem leaves_strokes (strokes : List Stroke) :
    Leaves (strokes.forM stroke) fun standing =>
      standing.run ((strokes.filterMap Stroke.action?).map (.panel standing.active)) := by
  induction strokes with
  | nil => exact leaves_pure ()
  | cons first others recurse =>
      intro before value after run
      change (stroke first >>= fun _ => others.forM stroke) before = _ at run
      rw [(leaves_stroke first).bind (fun _ => recurse) before value after run]
      cases first with
      | act action => simp [Stroke.action?, Standing.run, Standing.active_after]
      | gap | unknown char => rfl

/-- A transfer that is refused is reported, and nothing else comes of it. -/
theorem leaves_transfer (source target : PanelId) :
    Leaves (Session.transfer source target) (Standing.after · (.transfer source target)) := by
  intro before value after run
  simp only [Session.transfer] at run
  simp only [Standing.after, Calculator.attempt, standing]
  split at run
  · rename_i next moved
    rw [moved]
    exact leaves_write _ _ _ _ run
  · rename_i reason refused
    rw [refused]
    exact leaves_write _ _ _ _ run
  · cases run

/-- A setting that is refused is reported, and nothing else comes of it. -/
theorem leaves_set (key value : String) :
    Leaves (Session.set key value) (Standing.after · (.set key value)) := by
  intro before answer after run
  simp only [Session.set] at run
  simp only [Standing.after, Calculator.attempt, standing]
  split at run
  · rename_i next accepted
    cases run
    rw [accepted]
    rfl
  · rename_i fault refused
    rw [refused]
    exact leaves_write _ _ _ _ run

theorem leaves_return {step : Step Unit} {effect : Standing → Standing}
    (leaves : Leaves step effect) {before after : Session} {given answer : Value}
    (run : (step >>= fun _ => pure given) before = .ok answer after) :
    answer = given ∧ after.standing = effect before.standing := by
  obtain ⟨_, _, done, rest⟩ := bind_eq_ok_iff.mp run
  cases rest
  exact ⟨rfl, leaves before () after done⟩

/-- A command answers whether the session goes on, and leaves what it stands for. -/
theorem standing_obey {command : Command} {before after : Session} {goesOn : Bool}
    (run : obey command before = .ok goesOn after) :
    goesOn = !(Line.command command).quits ∧
      after.standing = before.standing.enter (.command command) := by
  cases command with
  | activate id => exact leaves_return (leaves_modify fun _ => rfl) run
  | transfer source target => exact leaves_return (leaves_transfer source target) run
  | act action => exact leaves_return (leaves_act action) run
  | set key value => exact leaves_return (leaves_set key value) run
  | incompleteSet | help | unknown name => exact leaves_return (leaves_write _) run
  | redraw | quit =>
      cases run
      exact ⟨rfl, rfl⟩

/-- A line answers whether the session goes on, and leaves what it stands for. -/
theorem standing_enter {text : String} {before after : Session} {goesOn : Bool}
    (run : enter text before = .ok goesOn after) :
    goesOn = !(Line.parse text).quits ∧
      after.standing = before.standing.enter (Line.parse text) := by
  unfold enter at run
  cases given : Line.parse text with
  | command command =>
      rw [given] at run
      exact standing_obey run
  | keys strokes =>
      rw [given] at run
      exact leaves_return (leaves_strokes strokes) run

/-- The line that bytes stand for, if they are text. -/
def Line.ofBytes? (bytes : List UInt8) : Option Line := (Text.decode? bytes).map parse

theorem Line.ofBytes?_of_decode {bytes : List UInt8} {text : String}
    (decoded : Text.decode? bytes = some text) : ofBytes? bytes = some (parse text) := by
  rw [ofBytes?, decoded, Option.map_some]

/-- A line that is read is text, and it is counted. -/
theorem standing_readLine {bytes : List UInt8} {before after : Session} {goesOn : Bool}
    (run : readLine bytes before = .ok goesOn after) :
    ∃ line, Line.ofBytes? bytes = some line ∧ goesOn = !line.quits ∧
      after.standing = before.standing.take line := by
  unfold readLine at run
  cases decoded : Text.decode? bytes with
  | none =>
      rw [decoded] at run
      cases run
  | some text =>
      rw [decoded] at run
      refine ⟨Line.parse text, Line.ofBytes?_of_decode decoded, ?_⟩
      obtain ⟨_, counted, count, rest⟩ := bind_eq_ok_iff.mp run
      cases count
      obtain ⟨answer, entered, entering, rest⟩ := bind_eq_ok_iff.mp rest
      obtain ⟨isAnswer, leaves⟩ := standing_enter entering
      have shown : goesOn = answer ∧ after.standing = entered.standing := by
        split at rest
        · obtain ⟨_, _, showing, rest⟩ := bind_eq_ok_iff.mp rest
          obtain ⟨same, asked⟩ := leaves_return leaves_ask rest
          exact ⟨same, asked.trans (leaves_showPanels _ _ _ showing)⟩
        · cases rest
          exact ⟨rfl, rfl⟩
      rw [shown.1, shown.2, isAnswer, leaves]
      exact ⟨rfl, rfl⟩

/-- The lines up to the first one that ends the session. -/
def Line.upToQuit : List Line → List Line
  | [] => []
  | line :: later => if line.quits then [line] else line :: upToQuit later

/-- The lines of a script that a session reads. -/
def linesRead (script : List UInt8) : List Line :=
  Line.upToQuit ((Text.lines script).filterMap Line.ofBytes?)

theorem standing_readLines {lines : List (List UInt8)} {before after : Session}
    (run : readLines lines before = .ok () after) :
    after.standing =
      (Line.upToQuit (lines.filterMap Line.ofBytes?)).foldl Standing.take before.standing := by
  induction lines generalizing before with
  | nil =>
      cases run
      rfl
  | cons bytes others recurse =>
      obtain ⟨goesOn, middle, reading, rest⟩ := bind_eq_ok_iff.mp run
      obtain ⟨line, read, answer, taken⟩ := standing_readLine reading
      rw [List.filterMap_cons_some read, Line.upToQuit]
      cases quits : line.quits with
      | true =>
          rw [answer, quits] at rest
          cases rest
          exact taken
      | false =>
          rw [answer, quits] at rest
          rw [recurse rest, taken]
          rfl

/-- A session that succeeds leaves what the lines up to its end stand for. -/
theorem standing_run {script : List UInt8} {before after : Session}
    (finished : run script before = .ok () after) :
    after.standing = (linesRead script).foldl Standing.take before.standing := by
  obtain ⟨_, opened, asked, rest⟩ := bind_eq_ok_iff.mp finished
  rw [standing_readLines rest, leaves_ask before () opened asked]
  rfl

end PanelCalc.Session
