import PanelCalc.Proofs.Session.Passing

/-!
# Sessions on sinks that end

A sink that takes only so many bytes cuts a session short. `Session.isCut_run` compares it with the
session on a sink without end: no byte is missing before the cut, the session fails just when the
cut loses a byte, and then its calculator is one that the other session passes through.
-/

namespace PanelCalc.Session

variable {Value : Type}

/-- `IsCut room whole cut` says that a step on a sink with this much room has come to `cut` where it
has come to `whole` on a sink without end. -/
structure IsCut (room : Nat) (whole cut : EStateM.Result Fault Session Value) : Prop where
  /-- As much of the output has been written as there is room for. -/
  written : (left cut).sink.written.toList = (left whole).sink.written.toList.take room
  /-- The output is at fault just when there is more of it. -/
  fails : (∃ reason, answer cut = .error (.output reason)) ↔
    room < (left whole).sink.written.toList.length
  /-- Otherwise nothing but the sink tells the two apart, even if both have failed. -/
  same : (left whole).sink.written.toList.length ≤ room →
    answer cut = answer whole ∧ (left cut).standing = (left whole).standing

/-- What a step performs without a fault of its output is cut by a sink that is empty before. -/
theorem Performs.isCut {step : Step Value} {before after : Session} {given : Except Fault Value}
    {output : List UInt8} {actions : List Action}
    (performs : Performs step before given after output actions)
    (empty : before.sink.written = #[]) (sound : ∀ reason, given ≠ .error (.output reason))
    (room : Nat) : IsCut room (step (before.within none)) (step (before.within (some room))) := by
  have wrote : (left (step (before.within none))).sink.written.toList = output := by
    rw [performs.endless, left_ending]
    exact performs.written.trans (by simp [empty])
  by_cases fits : output.length ≤ room
  · have cut := performs.enough room fits
    constructor
    case written =>
      rw [wrote, cut, left_ending, List.take_of_length_le fits, ← wrote, performs.endless,
        left_ending]
      rfl
    case fails =>
      rw [wrote, cut, answer_ending]
      constructor
      · rintro ⟨reason, failed⟩
        exact absurd failed (sound reason)
      · intro exceeded
        omega
    case same =>
      intro _
      rw [cut, performs.endless]
      simp only [answer_ending, left_ending]
      exact ⟨trivial, rfl⟩
  · obtain ⟨failed, taken, stuck, cut, _, _⟩ := performs.short room (by omega)
    rw [empty, Array.toList_empty, List.nil_append] at cut
    constructor
    case written =>
      rw [wrote, stuck]
      exact cut
    case fails =>
      rw [wrote, stuck]
      exact ⟨fun _ => by omega, fun _ => ⟨_, rfl⟩⟩
    case same =>
      intro enough
      rw [wrote] at enough
      exact absurd enough fits

/-- Wherever a sink cuts what a step performs, the calculator has been taken through a beginning of
the actions. -/
theorem Performs.passes {step : Step Value} {before after : Session} {given : Except Fault Value}
    {output : List UInt8} {actions : List Action}
    (performs : Performs step before given after output actions) (room : Nat) :
    ∃ taken, taken <+: actions ∧
      (left (step (before.within (some room)))).calculator = before.calculator.run taken := by
  by_cases fits : output.length ≤ room
  · refine ⟨actions, List.prefix_rfl, ?_⟩
    rw [performs.enough room fits, left_ending]
    exact performs.calculator
  · obtain ⟨failed, taken, stuck, _, beginning, reached⟩ := performs.short room (by omega)
    refine ⟨taken, beginning, ?_⟩
    rw [stuck]
    exact reached

/-- What a session does on a sink that ends is cut from what it does on a sink without end. -/
theorem isCut_of_run (calculator : Calculator) (script : List UInt8) (room : Nat) :
    IsCut room (run script { calculator })
      (run script { calculator, sink := { room := some room } }) := by
  obtain ⟨given, after, output, performs, garbled, intact⟩ := performs_run script { calculator }
  refine performs.isCut rfl ?_ room
  rintro reason rfl
  by_cases isGarbled : Garbled (Text.lines script)
  · cases garbled isGarbled
  · cases intact isGarbled

/-- Wherever a sink cuts a session, it has written the beginning of the output of the session on a
sink without end, and it fails just when it has not written all of it. That session takes the
calculator through all actions of its script, one after another; the one that is cut has taken it
through a beginning of them, and leaves a calculator that the other session passes through. -/
theorem isCut_run (calculator : Calculator) (script : List UInt8) (room : Nat) :
    let whole := run script { calculator }
    let cut := run script { calculator, sink := { room := some room } }
    let actions := Line.actionsOf .top (Line.taken (Text.lines script))
    IsCut room whole cut ∧
      (left whole).calculator = calculator.run actions ∧
      (∃ taken, taken <+: actions ∧ (left cut).calculator = calculator.run taken) ∧
      ∃ middle, Passes (Text.lines script) (left (ask { calculator })) middle ∧
        middle.calculator = (left cut).calculator := by
  intro whole cut actions
  obtain ⟨given, after, output, performs, _⟩ := performs_run script { calculator }
  have endless : whole = ending given (after.within none) := performs.endless
  have passes := performs.passes room
  refine ⟨isCut_of_run calculator script room, ?_, passes, exists_passes_run_iff.mpr passes⟩
  rw [endless, left_ending]
  exact performs.calculator

/-- A session that is cut in the middle of showing its panels has evaluated what was typed, and
typed nothing behind it. -/
example :
    let cut := left (run (Text.encode "6x7=\n1") { calculator := {}, sink := { room := some 20 } })
    cut.sink.written.toList = Text.encode "top> * top    6*7 = " ∧
      cut.calculator.top = .showing "6*7" "42" := by
  decide +kernel

end PanelCalc.Session
