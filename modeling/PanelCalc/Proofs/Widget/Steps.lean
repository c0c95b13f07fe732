import PanelCalc.Widget

/-!
# The calls of a page

All calls that a page can make of a widget, in the order of their steps: `Widget.obey`. A step that
fails ends the call and takes nothing back, so that what a call has changed before it fails would
stay changed. `obey_eq_settle` says that nothing ever is: every call looks for all its faults before
it changes anything.
-/

namespace PanelCalc.Widget

/-- What a page can do to one panel. -/
inductive Method where
  /-- A key or a longer text is typed. -/
  | input (text : String)
  | clear
  | backspace
  | evaluate
  deriving DecidableEq, Repr

def Method.action : Method → Panel.Action
  | input text => .type text
  | clear => .clear
  | backspace => .backspace
  | evaluate => .evaluate

/-- What a page asks without changing anything. -/
inductive Query where
  | panel (name : String)
  | hasOffer (name : String)
  | guidance
  | settings
  deriving DecidableEq, Repr

/-- The calls of a page. Every text in them is as the page has it. -/
inductive Call where
  | on (panel : String) (method : Method)
  | press (panel key : String)
  | transfer (source target : String)
  | set (key value : String)
  | load (stored : String)
  | ask (query : Query)
  deriving DecidableEq, Repr

/-- What a call answers. -/
inductive Answer where
  | flag (value : Bool)
  | done
  | panel (panel : Panel)
  | text (text : String)
  | settings (settings : Settings)
  deriving DecidableEq, Repr

/-! ## The steps of a call -/

/-- A part of a call. What it has changed before it fails stays changed. -/
abbrev Step (Value : Type) : Type := EStateM Fault Widget Value

/-- Looks up the panel with a name. -/
def named (name : String) : Step PanelId :=
  match PanelId.ofName name with
  | .ok id => pure id
  | .error fault => throw fault

/-- Applies an action, and compares the calculators before and after it. -/
def change (action : Action) : Step Bool := do
  let widget ← get
  match widget.calculator.attempt action with
  | .error fault => throw fault
  | .ok next =>
      if next = widget.calculator then return false
      modify fun _ => { calculator := next }
      return true

/-- Replaces the settings, and compares only them. -/
def adopt (settings : Settings) : Step Bool := do
  let widget ← get
  if widget.calculator.settings = settings then return false
  modify fun _ => { calculator := { widget.calculator with settings } }
  return true

/-- Answers what is asked. -/
def reply : Query → Step Answer
  | .panel name => do
      let id ← named name
      return .panel ((← get).calculator.panel id)
  | .hasOffer name => do
      let id ← named name
      return .flag ((← get).calculator.hasOffer id)
  | .guidance => return .text (← get).calculator.guidance
  | .settings => return .settings (← get).calculator.settings

/-- The steps of a call. -/
def obey [Json.Package] : Call → Step Answer
  | .on panel method => do
      let id ← named panel
      return .flag (← change (.panel id method.action))
  | .press panel key =>
      match Keypad.action? key with
      | none => return .flag false
      | some action => do
          let id ← named panel
          let _ ← change (.panel id action)
          return .flag true
  | .transfer source target => do
      let source ← named source
      let target ← named target
      let _ ← change (.transfer source target)
      return .done
  | .set key value => return .flag (← change (.set key value))
  | .load stored =>
      match Settings.ofJson stored with
      | .error fault => throw fault
      | .ok settings => return .flag (← adopt settings)
  | .ask query => reply query

/-- The outcome of a call that settles at once what it answers and what it leaves. -/
def answer [Json.Package] (widget : Widget) : Call → Except Fault (Answer × Widget)
  | .on panel method => (widget.act panel method.action).map fun (differs, next) =>
      (.flag differs, next)
  | .press panel key => (widget.press panel key).map fun (isKey, next) => (.flag isKey, next)
  | .transfer source target => (widget.transfer source target).map fun next => (.done, next)
  | .set key value => (widget.set key value).map fun (differs, next) => (.flag differs, next)
  | .load stored => (widget.load stored).map fun (differs, next) => (.flag differs, next)
  | .ask (.panel name) => (widget.panel name).map fun panel => (.panel panel, widget)
  | .ask (.hasOffer name) => (widget.hasOffer name).map fun isThere => (.flag isThere, widget)
  | .ask .guidance => .ok (.text widget.calculator.guidance, widget)
  | .ask .settings => .ok (.settings widget.calculator.settings, widget)

/-- An outcome after which a fault leaves everything as it was. -/
def settle {Value : Type} (widget : Widget) :
    Except Fault (Value × Widget) → EStateM.Result Fault Widget Value
  | .ok (value, next) => .ok value next
  | .error fault => .error fault widget

/-- A part of a call that has failed is not followed by another one. -/
theorem bind_apply {First Second : Type} (step : Step First) (next : First → Step Second)
    (widget : Widget) :
    (step >>= next) widget =
      match step widget with
      | .ok value after => next value after
      | .error fault after => .error fault after := by
  change EStateM.bind step next widget = _
  unfold EStateM.bind
  cases step widget <;> rfl

theorem get_apply (widget : Widget) : (get : Step Widget) widget = .ok widget widget := rfl

/-- A call that names no panel ends there. -/
theorem named_bind {Value : Type} (name : String) (next : PanelId → Step Value)
    (widget : Widget) :
    (named name >>= next) widget =
      match PanelId.ofName name with
      | .ok id => next id widget
      | .error fault => .error fault widget := by
  rw [bind_apply, named]
  cases PanelId.ofName name <;> rfl

/-- What has been settled may be put into an answer. -/
theorem settle_map {First Second : Type} {step : Step First} {widget : Widget}
    {outcome : Except Fault (First × Widget)} (settles : step widget = widget.settle outcome)
    (wrap : First → Second) :
    (step >>= fun value => pure (wrap value)) widget =
      widget.settle (outcome.map fun (value, next) => (wrap value, next)) := by
  rw [bind_apply, settles]
  cases outcome <;> rfl

/-- An action that is refused changes nothing. -/
theorem change_apply (action : Action) (widget : Widget) :
    change action widget = widget.settle (widget.perform action) := by
  unfold change perform moveTo
  rw [bind_apply]
  simp only [get_apply]
  cases widget.calculator.attempt action with
  | error fault => rfl
  | ok next =>
      by_cases same : next = widget.calculator
      · subst same
        simp [settle, pure, EStateM.pure, bind, Except.bind, Except.pure]
      · simp [same, settle, pure, bind, Except.bind, Except.pure]
        rfl

/-- Settings that are replaced by the same ones leave the whole calculator as it was. -/
theorem adopt_apply (settings : Settings) (widget : Widget) :
    adopt settings widget =
      widget.settle (.ok (widget.moveTo { widget.calculator with settings })) := by
  unfold adopt moveTo
  rw [bind_apply]
  simp only [get_apply]
  by_cases same : widget.calculator.settings = settings
  · subst same
    simp [settle, pure, EStateM.pure]
  · have differ : { widget.calculator with settings } ≠ widget.calculator := fun equal =>
      same (congrArg Calculator.settings equal).symm
    simp [same, differ, settle]
    rfl

/-- Every call settles what it answers and what it leaves: it looks for all its faults before it
changes anything. -/
theorem obey_eq_settle [Json.Package] (call : Call) (widget : Widget) :
    obey call widget = widget.settle (widget.answer call) := by
  cases call with
  | on panel method =>
      rw [obey, named_bind, answer, act]
      cases PanelId.ofName panel with
      | error fault => rfl
      | ok id => exact settle_map (change_apply _ widget) Answer.flag
  | press panel key =>
      rw [obey, answer, press]
      -- The key is looked up before the name.
      cases Keypad.action? key with
      | none => rfl
      | some action =>
          simp only [named_bind, act]
          cases PanelId.ofName panel with
          | error fault => rfl
          | ok id =>
              refine (settle_map (change_apply _ widget) fun _ => Answer.flag true).trans ?_
              cases performed : widget.perform (.panel id action) <;>
                simp [bind, Except.bind, performed] <;> rfl
  | transfer source target =>
      rw [obey, named_bind, answer, transfer]
      cases PanelId.ofName source with
      | error fault => rfl
      | ok source =>
          simp only [named_bind]
          cases PanelId.ofName target with
          | error fault => rfl
          | ok target =>
              refine (settle_map (change_apply _ widget) fun _ => Answer.done).trans ?_
              cases performed : widget.perform (.transfer source target) <;>
                simp [bind, Except.bind, performed] <;> rfl
  | set key value => exact settle_map (change_apply _ widget) Answer.flag
  | load stored =>
      rw [obey, answer, load]
      cases Settings.ofJson stored with
      | error fault => rfl
      | ok settings => exact settle_map (adopt_apply settings widget) Answer.flag
  | ask query =>
      cases query with
      | panel name =>
          rw [obey, reply, named_bind, answer, Widget.panel]
          cases PanelId.ofName name <;> rfl
      | hasOffer name =>
          rw [obey, reply, named_bind, answer, Widget.hasOffer]
          cases PanelId.ofName name <;> rfl
      | guidance => rfl
      | settings => rfl

end PanelCalc.Widget
