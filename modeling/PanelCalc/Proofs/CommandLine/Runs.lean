import PanelCalc.CommandLine
import PanelCalc.Proofs.Session.Cut

/-!
# Runs of the program

What a run of the program on a machine comes to, by what its arguments ask for: `run_of_expression`,
`run_of_failed` and `run_of_finished`. Where the standard output has limited room, a run either does
what it does on a machine without a limit, or it fails with the beginning of that output and leaves
the files as they were: `cut_run`.
-/

namespace PanelCalc.CommandLine

/-! ## Machines -/

section

variable {Value Result : Type} {machine next : Machine}

theorem bind_run {first : StateM Machine Value} {value : Value}
    (done : first.run machine = (value, next)) (second : Value → StateM Machine Result) :
    (first >>= second).run machine = (second value).run next := by
  rw [StateT.run_bind, done]
  rfl

variable [Json.Package]

theorem environment_run :
    Machine.host.environment.run machine = (machine.environment, machine) := rfl

theorem loadOrUsual_run (path? : Option String) :
    (Machine.host.loadOrUsual path?).run machine =
      (path?.elim {} (Settings.loadOrUsual machine.tree), machine) := by
  cases path? with
  | none => rfl
  | some path =>
      have loads : (Machine.host.load path).run machine =
        (Settings.load machine.tree path, machine) := rfl
      rw [Host.loadOrUsual, bind_run loads, Option.elim_some, Settings.loadOrUsual]
      cases Settings.load machine.tree path <;> rfl

theorem save_run (path : String) (settings : Settings) :
    (Machine.host.save path settings).run machine =
      ((Settings.save machine.tree path settings).1,
        { machine with tree := (Settings.save machine.tree path settings).2 }) := rfl

end

/-! ## Runs -/

variable [Directories] [Json.Package] {environment : Environment} {tree : FileTree}
  {arguments : List String} {request : Request} {script : List UInt8} {room : Option Nat}

/-- The settings with which a session is asked for. -/
def loaded (environment : Environment) (tree : FileTree) (request : Request) : Settings :=
  (settingsPath? environment request).elim {} (Settings.loadOrUsual tree)

/-- The session that is asked for. -/
def opened (environment : Environment) (tree : FileTree) (request : Request)
    (room : Option Nat) : Session :=
  { calculator := .start (request.override (loaded environment tree request)), sink := { room } }

/-- The ending of a run with a session that has come to its end. -/
def saved (environment : Environment) (tree : FileTree) (request : Request) (ended : Session) :
    Ending :=
  let output := ended.sink.written.toList
  let chosen := ended.tally.toSave ended.calculator.settings
    (loaded environment tree request).transferMode request.transferMode
  match chosen, settingsPath? environment request with
  | some settings, some path =>
      match Settings.save tree path settings with
      | (.ok _, saved) => ⟨0, output, saved⟩
      | (.error _, left) => ⟨1, output, left⟩
  | _, _ => ⟨0, output, tree⟩

/-- A session is run between loading the settings and keeping those that have been chosen. -/
theorem runSession_run {outcome : Except Fault Unit} {ended : Session}
    (ran : Session.run script (opened environment tree request room) =
      Session.ending outcome ended) :
    (Machine.host.runSession request).run { environment, tree, script, sink := { room } } =
      (Machine.host.keep request (settingsPath? environment request)
        (loaded environment tree request) (outcome, ended)).run
          { environment, tree, script, sink := ended.sink } := by
  have converses : (Machine.host.converse
      { calculator := .start (request.override (loaded environment tree request)) }).run
        { environment, tree, script, sink := { room } } =
          ((outcome, ended), { environment, tree, script, sink := ended.sink }) := by
    simp only [opened] at ran
    simp only [Machine.host, StateT.run, ran]
    cases outcome <;> rfl
  exact (bind_run environment_run _).trans
    ((bind_run (loadOrUsual_run _) _).trans (bind_run converses _))

/-- A run that computes an expression prints the result, touches no file and does not look at the
script. -/
theorem run_of_expression [Parser] {expression : String}
    (asks : Parser.read? arguments = some (.perform request))
    (given : request.expression = some expression) :
    run environment tree arguments script room =
      let wrote := Sink.write { room } (Text.encode (computeOnce expression).2)
      ⟨if wrote.1 then (computeOnce expression).1 else 101, wrote.2.written.toList, tree⟩ := by
  simp only [run, Host.run, asks, given]
  rfl

section

variable [Parser] {ended : Session} (asks : Parser.read? arguments = some (.perform request))
  (session : request.expression = none)

include asks session

/-- A run with a session that fails saves nothing. -/
theorem run_of_failed {fault : Fault}
    (failed : Session.run script (opened environment tree request room) = .error fault ended) :
    run environment tree arguments script room = ⟨1, ended.sink.written.toList, tree⟩ := by
  simp only [run, Host.run, asks, session]
  have ran : _ = Session.ending (.error fault) ended := failed
  rw [runSession_run ran]
  rfl

/-- A run with a session that comes to its end saves what has been chosen. -/
theorem run_of_finished
    (finished : Session.run script (opened environment tree request room) = .ok () ended) :
    run environment tree arguments script room = saved environment tree request ended := by
  simp only [run, Host.run, asks, session]
  have ran : _ = Session.ending (.ok ()) ended := finished
  rw [runSession_run ran, Host.keep.eq_def, saved]
  simp only
  cases ended.tally.toSave ended.calculator.settings
      (loaded environment tree request).transferMode request.transferMode with
  | none => rfl
  | some settings =>
      cases settingsPath? environment request with
      | none => rfl
      | some path =>
          simp only
          rw [bind_run (save_run path settings)]
          cases Settings.save tree path settings with
          | mk outcome left => cases outcome <;> rfl

/-- What a run with a session comes to, whether the session fails or not. -/
theorem run_of_session :
    let result := Session.run script (opened environment tree request room)
    run environment tree arguments script room =
      match Session.answer result with
      | .error _ => ⟨1, (Session.left result).sink.written.toList, tree⟩
      | .ok _ => saved environment tree request (Session.left result) := by
  intro result
  cases outcome : result with
  | error fault ended => exact run_of_failed asks session outcome
  | ok value ended => exact run_of_finished asks session outcome

end

/-! ## Output that is cut -/

/-- What has been written is put out, whether anything is saved or not. -/
theorem output_saved (ended : Session) :
    (saved environment tree request ended).output = ended.sink.written.toList := by
  simp only [saved]
  split
  · split <;> rfl
  · rfl

theorem saved_congr {ended other : Session} (standing : ended.standing = other.standing)
    (written : ended.sink.written.toList = other.sink.written.toList) :
    saved environment tree request ended = saved environment tree request other := by
  have calculator : ended.calculator = other.calculator :=
    congrArg Session.Standing.calculator standing
  have tally : ended.tally = other.tally := congrArg Session.Standing.tally standing
  simp only [saved, calculator, tally, written]

/-- A run with a session puts out what the session has written. -/
theorem output_run_of_session [Parser] (asks : Parser.read? arguments = some (.perform request))
    (session : request.expression = none) :
    (run environment tree arguments script room).output =
      (Session.left (Session.run script (opened environment tree request room))).sink.written.toList
      := by
  rw [run_of_session asks session]
  split
  · rfl
  · exact output_saved _

/-- `IsCutAt room tree whole cut` says that a run that puts out no more than `room` bytes has come to
`cut` where it comes to `whole` without a limit. If there is not enough room, it has failed with this
status and has left the files as they were. -/
structure IsCutAt (room : Nat) (status : Nat) (tree : FileTree) (whole cut : Ending) : Prop where
  output : cut.output = whole.output.take room
  enough : whole.output.length ≤ room → cut = whole
  short : room < whole.output.length → cut.status = status ∧ cut.tree = tree

/-- The status of a run that cannot put out everything. -/
def Request.cutStatus (request : Request) : Nat :=
  match request.expression with
  | some _ => 101
  | none => 1

section

variable [Parser] (asks : Parser.read? arguments = some (.perform request)) (room : Nat)

include asks

theorem cut_run_of_expression {expression : String} (given : request.expression = some expression) :
    IsCutAt room 101 tree (run environment tree arguments script)
      (run environment tree arguments script (some room)) := by
  rw [run_of_expression asks given, run_of_expression asks given]
  constructor
  case output => simp [Sink.write]
  case enough =>
    intro fits
    have fits : (Text.encode (computeOnce expression).2).length ≤ room := by
      simpa [Sink.write] using fits
    simp [Sink.write, fits, List.take_of_length_le fits]
  case short =>
    intro exceeded
    have tooLong : ¬ (Text.encode (computeOnce expression).2).length ≤ room := by
      simpa [Sink.write] using exceeded
    simp [Sink.write, tooLong]

theorem cut_run_of_session (session : request.expression = none) :
    IsCutAt room 1 tree (run environment tree arguments script)
      (run environment tree arguments script (some room)) := by
  have cut := Session.isCut_of_run
    (.start (request.override (loaded environment tree request))) script room
  constructor
  case output =>
    rw [output_run_of_session asks session, output_run_of_session asks session]
    exact cut.written
  case enough =>
    rw [output_run_of_session asks session]
    intro fits
    obtain ⟨answer, standing⟩ := cut.same fits
    have written := cut.written.trans (List.take_of_length_le fits)
    rw [run_of_session asks session, run_of_session asks session]
    simp only [opened, answer]
    split
    · rw [written]
    · exact saved_congr standing written
  case short =>
    rw [output_run_of_session asks session]
    intro exceeded
    obtain ⟨reason, failed⟩ := cut.fails.mpr exceeded
    rw [run_of_session asks session]
    simp only [opened, failed, and_self]

/-- Where the standard output has limited room, a run that has something to do puts out the
beginning of what it puts out without a limit. If that is all of it, nothing else differs; otherwise
the run fails, and no settings are saved. -/
theorem cut_run :
    IsCutAt room request.cutStatus tree (run environment tree arguments script)
      (run environment tree arguments script (some room)) := by
  cases given : request.expression with
  | some expression =>
      rw [Request.cutStatus, given]
      exact cut_run_of_expression asks room given
  | none =>
      rw [Request.cutStatus, given]
      exact cut_run_of_session asks room given

end

end PanelCalc.CommandLine
