import Mathlib.Data.List.Induction
import PanelCalc.Proofs.Outcome
import PanelCalc.Watched

/-!
# What observers are told

Any operations may be asked of a watched calculator one after the other. Who is registered at a
moment is a matter of the operations so far, and `Watched.Registered` says so without looking at the
watched calculator: an observer that was registered in the past and has not been dismissed since.
`Watched.lawful_operate` says of every operation behind every history that the registered observers,
and no others, are told once each of a change, and nobody is told anything without one.
-/

namespace PanelCalc.Watched

variable {World : Type}

/-- What can be asked of a watched calculator. -/
inductive Operation (World : Type) where
  | perform (action : Action)
  | adopt (settings : Settings)
  | register (told : Nat → Calculator → World → World)
  | dismiss (number : Nat)

/-- What a watched calculator answers. -/
inductive Answer where
  | performed (outcome : Except Fault Bool)
  | adopted (changed : Bool)
  | registered (number : Nat)
  | dismissed (found : Bool)
  deriving DecidableEq

/-- Whether an answer reports that the calculator has changed. -/
def Answer.reportsChange : Answer → Bool
  | performed (.ok changed) | adopted changed => changed
  | performed (.error _) | registered _ | dismissed _ => false

/-- Does what is asked. -/
def operate (watched : Watched World) (world : World) :
    Operation World → Answer × Watched World × World
  | .perform action =>
      let done := watched.perform action world
      (.performed done.1, done.2)
  | .adopt settings =>
      let done := watched.adopt settings world
      (.adopted done.1, done.2)
  | .register told =>
      let done := watched.register told
      (.registered done.1, done.2, world)
  | .dismiss number =>
      let done := watched.dismiss number
      (.dismissed done.1, done.2, world)

/-- A watched calculator and the world of its observers after a history of operations. -/
def run (watched : Watched World) (world : World) (history : List (Operation World)) :
    Watched World × World :=
  history.foldl (fun reached operation => (reached.1.operate reached.2 operation).2)
    (watched, world)

theorem run_concat (watched : Watched World) (world : World) (history : List (Operation World))
    (operation : Operation World) :
    watched.run world (history ++ [operation]) =
      ((watched.run world history).1.operate (watched.run world history).2 operation).2 := by
  simp [run]

/-- What is to become of the calculator in an operation, or why it is refused. -/
def Operation.outcome (calculator : Calculator) : Operation World → Except Fault Calculator
  | perform action => calculator.attempt action
  | adopt settings => .ok { calculator with settings }
  | register _ | dismiss _ => .ok calculator

/-- The world once observers have been told of a calculator, one after the other. -/
def worldTold (told : List (Observer World)) (calculator : Calculator) (world : World) : World :=
  told.foldl (fun world observer => observer.told calculator world) world

/-! ## One operation -/

/-- Moving on replaces the calculator and nothing else. -/
theorem watched_moveTo (watched : Watched World) (next : Calculator) (world : World) :
    (watched.moveTo next world).2.1 = { watched with calculator := next } := by
  unfold moveTo
  split
  · rename_i same
    rw [same]
  · rfl

/-- Moving on answers whether the calculator becomes another one. -/
theorem answer_moveTo (watched : Watched World) (next : Calculator) (world : World) :
    (watched.moveTo next world).1 = true ↔ next ≠ watched.calculator := by
  unfold moveTo
  split <;> simp_all

/-- Observers are told of a calculator only if it is another one. -/
theorem world_moveTo (watched : Watched World) (next : Calculator) (world : World) :
    (watched.moveTo next world).2.2 =
      if next = watched.calculator then world else worldTold watched.observers next world := by
  unfold moveTo
  split <;> rfl

/-- An action moves on to the calculator after it; a refused one stays where it is. -/
theorem perform_snd (watched : Watched World) (action : Action) (world : World) :
    (watched.perform action world).2 =
      (watched.moveTo (watched.calculator.after action) world).2 := by
  simp only [perform, Calculator.after]
  cases watched.calculator.attempt action with
  | error fault => simp [moveTo]
  | ok next => rfl

/-- An operation leaves the calculator that is to become of the present one. -/
theorem calculator_operate {watched : Watched World} {operation : Operation World}
    {next : Calculator} (accepted : operation.outcome watched.calculator = .ok next)
    (world : World) : (watched.operate world operation).2.1.calculator = next := by
  cases operation with
  | perform action =>
      rw [Operation.outcome] at accepted
      simp [operate, perform, accepted, watched_moveTo]
  | adopt settings =>
      cases accepted
      simp [operate, Watched.adopt, watched_moveTo]
  | register told | dismiss number =>
      cases accepted
      rfl

/-- Only actions are refused. They answer why, and nothing happens. -/
theorem operate_of_refused {watched : Watched World} {operation : Operation World} {fault : Fault}
    (refused : operation.outcome watched.calculator = .error fault) (world : World) :
    watched.operate world operation = (.performed (.error fault), watched, world) := by
  cases operation with
  | perform action =>
      rw [Operation.outcome] at refused
      simp [operate, perform, refused]
  | adopt settings | register told | dismiss number => cases refused

/-- An operation reports a change just when there is one. -/
theorem reportsChange_operate (watched : Watched World) (world : World)
    (operation : Operation World) :
    (watched.operate world operation).1.reportsChange = true ↔
      (watched.operate world operation).2.1.calculator ≠ watched.calculator := by
  cases operation with
  | perform action =>
      simp only [operate, perform]
      cases watched.calculator.attempt action with
      | error fault => simp [Answer.reportsChange]
      | ok next => simp [Answer.reportsChange, answer_moveTo, watched_moveTo]
  | adopt settings => simp [operate, adopt, Answer.reportsChange, answer_moveTo, watched_moveTo]
  | register told => simp [operate, register, Answer.reportsChange]
  | dismiss number => simp [operate, dismiss, Answer.reportsChange]

/-- The observers that an operation finds are told of a change, and of nothing else. -/
theorem world_operate (watched : Watched World) (world : World) (operation : Operation World) :
    (watched.operate world operation).2.2 =
      if (watched.operate world operation).2.1.calculator = watched.calculator then world
      else worldTold watched.observers (watched.operate world operation).2.1.calculator world := by
  cases operation with
  | perform action => simp only [operate, perform_snd, watched_moveTo, world_moveTo]
  | adopt settings => simp only [operate, adopt, watched_moveTo, world_moveTo]
  | register told => simp [operate, register]
  | dismiss number => simp [operate, dismiss]

/-! ## Registration -/

/-- Whether an operation registers an observer. -/
def Operation.registers : Operation World → Bool
  | register _ => true
  | perform _ | adopt _ | dismiss _ => false

/-- How many observers a history has registered. -/
def registrations (history : List (Operation World)) : Nat := history.countP Operation.registers

/-- `Registered history observer` says that a history has registered an observer, under the number
of observers registered before it, and has not dismissed it since. -/
def Registered (history : List (Operation World)) (observer : Observer World) : Prop :=
  ∃ before told later, history = before ++ .register told :: later ∧
    observer = ⟨registrations before, told (registrations before)⟩ ∧
    .dismiss observer.number ∉ later

@[simp] theorem registrations_append (before later : List (Operation World)) :
    registrations (before ++ later) = registrations before + registrations later := by
  simp [registrations]

/-- A number that was given out is smaller than all that will be. -/
theorem registrations_lt (before later : List (Operation World))
    (told : Nat → Calculator → World → World) :
    registrations before < registrations (before ++ .register told :: later) := by
  simp [registrations, Operation.registers]

theorem Registered.number_lt {history : List (Operation World)} {observer : Observer World}
    (registered : Registered history observer) : observer.number < registrations history := by
  obtain ⟨before, told, later, rfl, rfl, _⟩ := registered
  exact registrations_lt before later told

theorem not_registered_nil (observer : Observer World) : ¬Registered [] observer := by
  rintro ⟨before, told, later, whole, _⟩
  simp at whole

/-- An operation keeps everybody registered but an observer that it dismisses, and adds the one that
it registers. -/
theorem registered_concat_iff {history : List (Operation World)} {operation : Operation World}
    {observer : Observer World} :
    Registered (history ++ [operation]) observer ↔
      (Registered history observer ∧ operation ≠ .dismiss observer.number) ∨
      ∃ told, operation = .register told ∧
        observer = ⟨registrations history, told (registrations history)⟩ := by
  constructor
  · rintro ⟨before, told, later, whole, same, kept⟩
    rcases List.eq_nil_or_concat later with rfl | ⟨between, last, rfl⟩
    · obtain ⟨rfl, isRegistration⟩ := List.append_inj' whole rfl
      simp only [List.cons.injEq, and_true] at isRegistration
      exact .inr ⟨told, isRegistration, same⟩
    · have split : history ++ [operation] = (before ++ .register told :: between) ++ [last] := by
        rw [whole]
        simp
      obtain ⟨rfl, isLast⟩ := List.append_inj' split rfl
      simp only [List.cons.injEq, and_true] at isLast
      subst isLast
      simp only [List.concat_eq_append, List.mem_append, List.mem_singleton, not_or] at kept
      exact .inl ⟨⟨before, told, between, rfl, same, kept.1⟩, Ne.symm kept.2⟩
  · rintro (⟨⟨before, told, later, rfl, same, kept⟩, stays⟩ | ⟨told, rfl, same⟩)
    · refine ⟨before, told, later ++ [operation], by simp, same, ?_⟩
      simp only [List.mem_append, List.mem_singleton, not_or]
      exact ⟨kept, Ne.symm stays⟩
    · exact ⟨history, told, [], rfl, same, by simp⟩

/-- An observer that has been dismissed is not registered again, and no other one gets its
number. -/
theorem Registered.number_ne {before later : List (Operation World)} {dismissed : Observer World}
    (present : Registered before dismissed) {observer : Observer World}
    (registered : Registered (before ++ .dismiss dismissed.number :: later) observer) :
    observer.number ≠ dismissed.number := by
  induction later using List.reverseRecOn generalizing observer with
  | nil =>
      rw [registered_concat_iff] at registered
      rcases registered with ⟨_, stays⟩ | ⟨told, impossible, _⟩
      · intro same
        exact stays (by rw [same])
      · cases impossible
  | append_singleton later operation recurse =>
      rw [← List.cons_append, ← List.append_assoc, registered_concat_iff] at registered
      rcases registered with ⟨earlier, _⟩ | ⟨told, _, same⟩
      · exact recurse earlier
      · have given := present.number_lt
        rw [same]
        simp only [registrations_append]
        omega

/-- What a watched calculator knows of its observers after a history. -/
structure Knows (watched : Watched World) (history : List (Operation World)) : Prop where
  /-- Its observers are those that are registered. -/
  observers : ∀ observer, observer ∈ watched.observers ↔ Registered history observer
  /-- They stand in the order in which they were registered. -/
  ordered : watched.observers.Pairwise (·.number < ·.number)
  /-- No number from the next one on has been given out. -/
  nextNumber : watched.nextNumber = registrations history

theorem knows_nil (calculator : Calculator) : Knows ({ calculator } : Watched World) [] where
  observers observer := by simp [not_registered_nil]
  ordered := .nil
  nextNumber := rfl

/-- An operation that neither registers nor dismisses changes nothing in what is known. -/
theorem Knows.keep {watched : Watched World} {history : List (Operation World)}
    (knows : Knows watched history) (next : Calculator) {operation : Operation World}
    (noRegistration : operation.registers = false)
    (noDismissal : ∀ number, operation ≠ .dismiss number) :
    Knows { watched with calculator := next } (history ++ [operation]) where
  observers observer := by
    rw [knows.observers, registered_concat_iff]
    constructor
    · intro registered
      exact .inl ⟨registered, noDismissal _⟩
    · rintro (⟨registered, _⟩ | ⟨told, rfl, _⟩)
      · exact registered
      · cases noRegistration
  ordered := knows.ordered
  nextNumber := by simp [knows.nextNumber, registrations, noRegistration]

/-- A registration puts the new observer behind all others. -/
theorem Knows.register {watched : Watched World} {history : List (Operation World)}
    (knows : Knows watched history) (told : Nat → Calculator → World → World) :
    Knows (watched.register told).2 (history ++ [.register told]) where
  observers observer := by
    simp only [Watched.register, List.mem_append, List.mem_singleton, knows.observers,
      knows.nextNumber, registered_concat_iff]
    constructor
    · rintro (registered | same)
      · exact .inl ⟨registered, by simp⟩
      · exact .inr ⟨told, rfl, same⟩
    · rintro (⟨registered, _⟩ | ⟨given, isGiven, same⟩)
      · exact .inl registered
      · cases isGiven
        exact .inr same
  ordered := by
    refine List.pairwise_append.mpr ⟨knows.ordered, List.pairwise_singleton _ _, ?_⟩
    intro earlier member latest isLatest
    rw [List.mem_singleton.mp isLatest, knows.nextNumber]
    exact ((knows.observers earlier).mp member).number_lt
  nextNumber := by
    simp [Watched.register, knows.nextNumber, registrations, Operation.registers]

/-- A dismissal takes out the observer with its number. -/
theorem Knows.dismiss {watched : Watched World} {history : List (Operation World)}
    (knows : Knows watched history) (number : Nat) :
    Knows (watched.dismiss number).2 (history ++ [.dismiss number]) where
  observers observer := by
    simp only [Watched.dismiss, List.mem_filter, knows.observers, registered_concat_iff,
      bne_iff_ne]
    constructor
    · rintro ⟨registered, other⟩
      refine .inl ⟨registered, ?_⟩
      rintro ⟨⟩
      exact other rfl
    · rintro (⟨registered, stays⟩ | ⟨told, impossible, _⟩)
      · refine ⟨registered, ?_⟩
        rintro rfl
        exact stays rfl
      · cases impossible
  ordered := knows.ordered.filter _
  nextNumber := by
    simp [Watched.dismiss, knows.nextNumber, registrations, Operation.registers]

theorem Knows.operate {watched : Watched World} {history : List (Operation World)}
    (knows : Knows watched history) (world : World) (operation : Operation World) :
    Knows (watched.operate world operation).2.1 (history ++ [operation]) := by
  cases operation with
  | perform action =>
      simp only [Watched.operate, perform_snd, watched_moveTo]
      exact knows.keep _ rfl (by simp)
  | adopt settings =>
      simp only [Watched.operate, adopt, watched_moveTo]
      exact knows.keep _ rfl (by simp)
  | register told => exact knows.register told
  | dismiss number => exact knows.dismiss number

/-- After every history, a watched calculator knows who is registered. -/
theorem knows_run (calculator : Calculator) (world : World) (history : List (Operation World)) :
    Knows (run { calculator } world history).1 history := by
  induction history using List.reverseRecOn with
  | nil => exact knows_nil calculator
  | append_singleton history operation recurse =>
      rw [run_concat]
      exact recurse.operate _ operation

/-! ## Every operation of every run -/

/-- The law of an operation that follows a history. -/
structure Lawful (calculator : Calculator) (world : World) (history : List (Operation World))
    (operation : Operation World) : Prop where
  /-- The calculator becomes what the operation makes of it. -/
  reached : ∀ next,
    let before := run { calculator } world history
    operation.outcome before.1.calculator = .ok next →
      (before.1.operate before.2 operation).2.1.calculator = next
  /-- A refusal is answered, and leaves everything as it was. -/
  refused : ∀ fault,
    let before := run { calculator } world history
    operation.outcome before.1.calculator = .error fault →
      before.1.operate before.2 operation = (.performed (.error fault), before.1, before.2)
  /-- A change is reported just when the calculator differs afterwards. -/
  reported :
    let before := run { calculator } world history
    let done := before.1.operate before.2 operation
    done.1.reportsChange = true ↔ done.2.1.calculator ≠ before.1.calculator
  /-- Of a change all registered observers are told, each once, in the order of their registration,
  and of the new calculator; without a change nobody is told. -/
  told :
    let before := run { calculator } world history
    let done := before.1.operate before.2 operation
    ∃ told : List (Observer World),
      told.Pairwise (·.number < ·.number) ∧
      (∀ observer, observer ∈ told ↔
        Registered history observer ∧ done.2.1.calculator ≠ before.1.calculator) ∧
      done.2.2 = worldTold told done.2.1.calculator before.2
  /-- A registration answers a number that was never given out before. -/
  fresh : ∀ observer, operation = .register observer →
    let before := run { calculator } world history
    (before.1.operate before.2 operation).1 = .registered (registrations history) ∧
      ∀ earlier told later, history = earlier ++ .register told :: later →
        registrations earlier ≠ registrations history
  /-- A dismissal answers whether an observer with its number is registered. -/
  found : ∀ number, operation = .dismiss number →
    let before := run { calculator } world history
    ((before.1.operate before.2 operation).1 = .dismissed true ↔
      ∃ observer, Registered history observer ∧ observer.number = number)
  /-- An observer that has been dismissed is never told again. -/
  gone : ∀ earlier dismissed later, history = earlier ++ .dismiss dismissed.number :: later →
    Registered earlier dismissed →
    ∀ observer, Registered history observer → observer.number ≠ dismissed.number

/-- From every calculator on and after all operations so far, an operation tells its observers what
they are to be told. -/
theorem lawful_operate (calculator : Calculator) (world : World)
    (history : List (Operation World)) (operation : Operation World) :
    Lawful calculator world history operation := by
  have knows := knows_run calculator world history
  constructor
  case reached =>
    intro next before accepted
    exact calculator_operate accepted _
  case refused =>
    intro fault before refused
    exact operate_of_refused refused _
  case reported => exact reportsChange_operate _ _ operation
  case told =>
    intro before done
    by_cases same : done.2.1.calculator = before.1.calculator
    · refine ⟨[], .nil, by simp [same], ?_⟩
      exact (world_operate _ _ operation).trans (if_pos same)
    · refine ⟨before.1.observers, knows.ordered, by simp [knows.observers, before, same], ?_⟩
      exact (world_operate _ _ operation).trans (if_neg same)
  case fresh =>
    rintro observer rfl before
    refine ⟨congrArg Answer.registered knows.nextNumber, ?_⟩
    rintro earlier told later rfl
    exact Nat.ne_of_lt (registrations_lt earlier later told)
  case found =>
    rintro number rfl before
    simp [operate, dismiss, before, knows.observers]
  case gone =>
    rintro earlier dismissed later rfl present observer registered
    exact present.number_ne registered

/-- Two observers keep a log of what they see. The first one is dismissed after the first key. -/
example :
    let log := fun (number : Nat) (seen : Calculator) (entries : List (Nat × String)) =>
      entries ++ [(number, seen.top.expression)]
    (run { calculator := {} } []
      [.register log, .register log, .perform (.panel .top (.type "1")), .dismiss 0,
        .perform (.panel .top .clear), .perform (.panel .top .clear)]).2 =
      [(0, "1"), (1, "1"), (1, "")] := by
  decide

end PanelCalc.Watched
