import PanelCalc.Proofs.Calculator.History
import PanelCalc.Proofs.Calculator.Refusals
import PanelCalc.Proofs.Widget.Outcomes

/-!
# Laws of calls

What a page can rely on whatever it calls, with whatever texts: `Widget.Lawful`. The laws hold at
every moment of every run, `lawful_run`; those about what is kept hold of rows of calls as well.
-/

namespace PanelCalc

/-- Calculators that are not the same differ in a panel or in the settings. -/
theorem Calculator.ne_iff_differs {next before : Calculator} :
    next ≠ before ↔
      (∃ id, next.panel id ≠ before.panel id) ∨ next.settings ≠ before.settings := by
  constructor
  · intro differ
    by_cases panels : ∀ id, next.panel id = before.panel id
    · right
      intro settings
      apply differ
      cases next
      cases before
      cases panels .top
      cases panels .bottom
      cases settings
      rfl
    · exact .inl (Classical.not_forall.mp panels)
  · rintro (⟨id, differs⟩ | differs) rfl
    · exact differs rfl
    · exact differs rfl

namespace Widget

/-! ## Runs -/

/-- The widget after a call, whether it has failed or not. -/
def after [Json.Package] (widget : Widget) (call : Call) : Widget :=
  match obey call widget with
  | .ok _ next => next
  | .error _ next => next

/-- The widget after a row of calls. -/
def run [Json.Package] (widget : Widget) (calls : List Call) : Widget := calls.foldl after widget

/-- A call that has failed has left everything as it was. -/
theorem obey_eq_error_iff [Json.Package] {widget next : Widget} {call : Call}
    {fault : Fault} :
    obey call widget = .error fault next ↔ widget.answer call = .error fault ∧ next = widget := by
  rw [obey_eq_settle]
  cases widget.answer call <;> simp [settle, @eq_comm _ next]

theorem obey_eq_ok_iff [Json.Package] {widget next : Widget} {call : Call} {value : Answer} :
    obey call widget = .ok value next ↔ widget.answer call = .ok (value, next) := by
  rw [obey_eq_settle]
  cases widget.answer call with
  | error fault => simp [settle]
  | ok outcome =>
      obtain ⟨own, reached⟩ := outcome
      simp [settle]

/-- A call leaves everything as it was, or does what a call can do that does not fail. -/
theorem after_eq_or_does [Json.Package] (widget : Widget) (call : Call) :
    widget.after call = widget ∨ Does widget call (widget.after call) := by
  unfold after
  cases done : obey call widget with
  | error fault next => exact .inl (obey_eq_error_iff.mp done).2
  | ok value next => exact .inr (does_of_answer (obey_eq_ok_iff.mp done)).1

/-- Whether a call can change a panel. -/
def Call.Reaches (call : Call) (id : PanelId) : Prop :=
  match call with
  | on panel _ | press panel _ => id.Named panel
  | transfer _ target => id.Named target
  | set _ _ | load _ | ask _ => False

/-- Whether a call can change the settings. -/
def Call.chooses : Call → Bool
  | set _ _ | load _ => true
  | on _ _ | press _ _ | transfer _ _ | ask _ => false

/-- A call that does not reach a panel asks for no action that delivers anything to it. -/
theorem Call.Asks.delivered_eq_none {call : Call} {action : Action} (asks : call.Asks action)
    {id : PanelId} (apart : ¬call.Reaches id) (calculator : Calculator) :
    calculator.delivered id action = none := by
  cases asks with
  | on named | press named _ =>
      rw [Calculator.delivered, if_neg]
      rintro rfl
      exact apart named
  | transfer givers takers =>
      rw [Calculator.delivered, if_pos]
      right
      rintro rfl
      exact apart takers
  | set => rfl

/-- A call keeps every panel that it does not reach. -/
theorem panel_after [Json.Package] (widget : Widget) {call : Call} {id : PanelId}
    (apart : ¬call.Reaches id) :
    (widget.after call).calculator.panel id = widget.calculator.panel id := by
  rcases widget.after_eq_or_does call with same | does
  · rw [same]
  generalize widget.after call = next at does
  cases does with
  | @acts _ action next asks accepted =>
      have kept := widget.calculator.panel_after id action
      rw [asks.delivered_eq_none apart, Calculator.after, accepted] at kept
      exact kept
  | adopts readable => cases id <;> rfl
  | passes unmapped => rfl
  | asks => rfl

/-- Calls keep every panel that none of them reaches. -/
theorem panel_run [Json.Package] (widget : Widget) {calls : List Call} {id : PanelId}
    (apart : ∀ call ∈ calls, ¬call.Reaches id) :
    (widget.run calls).calculator.panel id = widget.calculator.panel id := by
  induction calls generalizing widget with
  | nil => rfl
  | cons call later recurse =>
      rw [List.forall_mem_cons] at apart
      exact (recurse (widget.after call) apart.2).trans (widget.panel_after apart.1)

/-- A call keeps the settings if it is no choice of settings. -/
theorem settings_after [Json.Package] (widget : Widget) {call : Call}
    (other : call.chooses = false) :
    (widget.after call).calculator.settings = widget.calculator.settings := by
  rcases widget.after_eq_or_does call with same | does
  · rw [same]
  generalize widget.after call = next at does
  cases does with
  | @acts _ action next asks accepted =>
      have kept : (widget.calculator.after action).settings = widget.calculator.settings := by
        apply Calculator.settings_after
        rintro key value rfl
        cases asks
        cases other
      rw [Calculator.after, accepted] at kept
      exact kept
  | adopts readable => cases other
  | passes unmapped => rfl
  | asks => rfl

/-- Calls keep the settings if none of them is a choice of settings. -/
theorem settings_run [Json.Package] (widget : Widget) {calls : List Call}
    (other : ∀ call ∈ calls, call.chooses = false) :
    (widget.run calls).calculator.settings = widget.calculator.settings := by
  induction calls generalizing widget with
  | nil => rfl
  | cons call later recurse =>
      rw [List.forall_mem_cons] at other
      exact (recurse (widget.after call) other.2).trans (widget.settings_after other.1)

/-! ## Names and keys -/

/-- Calls that differ at most in the spelling of panel names. -/
inductive Call.Alike : Call → Call → Prop
  | on {first second : String} {method : Method} : PanelId.SameName first second →
      Alike (.on first method) (.on second method)
  | press {first second key : String} : PanelId.SameName first second →
      Alike (.press first key) (.press second key)
  | transfer {givers takers givers' takers' : String} : PanelId.SameName givers givers' →
      PanelId.SameName takers takers' → Alike (.transfer givers takers) (.transfer givers' takers')
  | panel {first second : String} : PanelId.SameName first second →
      Alike (.ask (.panel first)) (.ask (.panel second))
  | hasOffer {first second : String} : PanelId.SameName first second →
      Alike (.ask (.hasOffer first)) (.ask (.hasOffer second))

/-- Outcomes that differ at most in the spelling of a panel name that is quoted. -/
inductive AlikeOutcome : EStateM.Result Fault Widget Answer →
    EStateM.Result Fault Widget Answer → Prop
  | same {outcome : EStateM.Result Fault Widget Answer} : AlikeOutcome outcome outcome
  | quoted {first second : String} {next : Widget} : PanelId.SameName first second →
      AlikeOutcome (.error (.unknownPanel first) next) (.error (.unknownPanel second) next)

/-- Two spellings find the same panel, or none. -/
theorem alike_named_bind {first second : String} (same : PanelId.SameName first second)
    {next onward : PanelId → Step Answer} {widget : Widget}
    (alike : ∀ id, AlikeOutcome (next id widget) (onward id widget)) :
    AlikeOutcome ((named first >>= next) widget) ((named second >>= onward) widget) := by
  rw [named_bind, named_bind]
  cases found : PanelId.ofName first with
  | ok id =>
      rw [PanelId.ofName_eq_ok_iff.mpr (same.symm.trans (PanelId.ofName_eq_ok_iff.mp found))]
      exact alike id
  | error fault =>
      obtain ⟨rfl, unnamed⟩ := PanelId.ofName_eq_error_iff.mp found
      have neither : PanelId.ofName second = .error (.unknownPanel second) :=
        PanelId.ofName_eq_error_iff.mpr ⟨rfl, fun id named => unnamed id (same.trans named)⟩
      rw [neither]
      exact .quoted same

/-- How panel names are spelled makes no difference to a call. -/
theorem alike_obey [Json.Package] {first second : Call} (alike : first.Alike second)
    (widget : Widget) :
    AlikeOutcome (obey first widget) (obey second widget) := by
  cases alike with
  | on same | panel same | hasOffer same => exact alike_named_bind same fun _ => .same
  | @press first second key same =>
      simp only [obey]
      cases Keypad.action? key with
      | none => exact .same
      | some action => exact alike_named_bind same fun _ => .same
  | transfer givers takers =>
      exact alike_named_bind givers fun _ => alike_named_bind takers fun _ => .same

/-- Every key that does something does what a call on the panel does. -/
theorem exists_method_of_action {key : String} {action : Panel.Action}
    (mapped : Keypad.action? key = some action) : ∃ method : Method, method.action = action := by
  unfold Keypad.action? at mapped
  split at mapped
  · cases mapped
    exact ⟨.evaluate, rfl⟩
  split at mapped
  · cases mapped
    exact ⟨.backspace, rfl⟩
  split at mapped
  · cases mapped
    exact ⟨.clear, rfl⟩
  split at mapped
  · split at mapped
    · cases mapped
      exact ⟨.input key, rfl⟩
    · cases mapped
  · cases mapped

/-- A key that does something has the effect of a call on the panel, and always answers that it
does something. -/
theorem obey_press [Json.Package] {key : String} {method : Method}
    (mapped : Keypad.action? key = some method.action) (panel : String) (widget : Widget) :
    obey (.press panel key) widget =
      match obey (.on panel method) widget with
      | .ok _ next => .ok (.flag true) next
      | .error fault next => .error fault next := by
  simp only [obey, mapped, named_bind]
  cases PanelId.ofName panel with
  | error fault => rfl
  | ok id =>
      simp only [bind_apply]
      cases change (.panel id method.action) widget <;> rfl

/-- A call on a panel fails just when there is no such panel. -/
theorem obey_on_eq_ok_iff [Json.Package] {name : String} {method : Method} {widget : Widget} :
    (∃ value next, obey (.on name method) widget = .ok value next) ↔
      ∃ id : PanelId, id.Named name := by
  constructor
  · rintro ⟨value, next, done⟩
    cases (does_of_answer (obey_eq_ok_iff.mp done)).1 with
    | acts asks accepted =>
        cases asks with
        | on named => exact ⟨_, named⟩
  · rintro ⟨id, named⟩
    cases done : obey (.on name method) widget with
    | ok value next => exact ⟨value, next, rfl⟩
    | error fault next =>
        obtain ⟨failed, _⟩ := obey_eq_error_iff.mp done
        rw [answer, map_eq_error_iff, act_eq_error_iff, PanelId.ofName_eq_ok_iff.mpr named]
          at failed
        cases failed

/-- A transfer succeeds just between two different panels that exist, of which the first has a value
to give. -/
theorem obey_transfer_eq_ok_iff [Json.Package] {givers takers : String} {widget : Widget} :
    (∃ value next, obey (.transfer givers takers) widget = .ok value next) ↔
      ∃ source target : PanelId, source.Named givers ∧ target.Named takers ∧ source ≠ target ∧
        ∃ offered, (widget.calculator.panel source).Offers offered := by
  constructor
  · rintro ⟨value, next, done⟩
    cases (does_of_answer (obey_eq_ok_iff.mp done)).1 with
    | @acts _ action next asks accepted =>
        cases asks with
        | transfer isGiver isTaker =>
            obtain ⟨differ, offered, given, _⟩ := Calculator.transfer_eq_ok_iff.mp accepted
            exact ⟨_, _, isGiver, isTaker, differ, offered, Panel.offer_eq_ok_iff.mp given⟩
  · rintro ⟨source, target, isGiver, isTaker, differ, offered, offers⟩
    obtain ⟨next, accepted⟩ := Calculator.transfer_isOk_iff.mpr
      ⟨differ, Calculator.hasOffer_iff.mpr ⟨offered, offers.offer⟩⟩
    have performed : widget.perform (.transfer source target) = .ok (_, ⟨next⟩) :=
      perform_eq_ok_iff.mpr ⟨accepted, rfl⟩
    have moved : widget.transfer givers takers = .ok ⟨next⟩ :=
      bind_eq_ok_iff.mpr ⟨source, PanelId.ofName_eq_ok_iff.mpr isGiver,
        bind_eq_ok_iff.mpr ⟨target, PanelId.ofName_eq_ok_iff.mpr isTaker,
          bind_eq_ok_iff.mpr ⟨_, performed, rfl⟩⟩⟩
    exact ⟨.done, ⟨next⟩, obey_eq_ok_iff.mpr (map_eq_ok_iff.mpr ⟨_, moved, rfl⟩)⟩

/-- Setting succeeds just for a value that the setting takes. -/
theorem obey_set_eq_ok_iff [Json.Package] {key value : String} {widget : Widget} :
    (∃ own next, obey (.set key value) widget = .ok own next) ↔ Settings.Takes key value := by
  rw [← @Settings.set_isOk_iff widget.calculator.settings]
  constructor
  · rintro ⟨own, next, done⟩
    cases (does_of_answer (obey_eq_ok_iff.mp done)).1 with
    | @acts _ action next asks accepted =>
        cases asks with
        | set =>
            rw [Calculator.attempt, Calculator.set] at accepted
            split at accepted
            · cases accepted
            · rename_i settings taken
              exact ⟨settings, taken⟩
  · rintro ⟨settings, taken⟩
    have performed : widget.set key value = .ok (_, ⟨{ widget.calculator with settings }⟩) :=
      perform_eq_ok_iff.mpr ⟨by rw [Calculator.attempt, Calculator.set, taken], rfl⟩
    exact ⟨_, _, obey_eq_ok_iff.mpr (map_eq_ok_iff.mpr ⟨_, performed, rfl⟩)⟩

/-- Stored settings are loaded just when they can be read. -/
theorem obey_load_eq_ok_iff [Json.Package] {stored : String} {widget : Widget} :
    (∃ value next, obey (.load stored) widget = .ok value next) ↔
      ∃ settings, Settings.ofJson stored = .ok settings := by
  constructor
  · rintro ⟨value, next, done⟩
    cases (does_of_answer (obey_eq_ok_iff.mp done)).1 with
    | acts asks accepted => cases asks
    | adopts readable => exact ⟨_, readable⟩
  · rintro ⟨settings, readable⟩
    have moved : widget.load stored = .ok (widget.moveTo { widget.calculator with settings }) :=
      bind_eq_ok_iff.mpr ⟨settings, readable, rfl⟩
    exact ⟨_, _, obey_eq_ok_iff.mpr (map_eq_ok_iff.mpr ⟨_, moved, rfl⟩)⟩

/-- A key press answers yes just when the key does something and the panel exists. -/
theorem obey_press_eq_true_iff [Json.Package] {panel key : String} {widget : Widget} :
    (∃ next, obey (.press panel key) widget = .ok (.flag true) next) ↔
      (Keypad.action? key).isSome = true ∧ ∃ id : PanelId, id.Named panel := by
  constructor
  · rintro ⟨next, pressed⟩
    cases (does_of_answer (obey_eq_ok_iff.mp pressed)).1 with
    | acts asks accepted =>
        cases asks with
        | press named mapped => exact ⟨Option.isSome_of_eq_some mapped, _, named⟩
    | passes unmapped =>
        simp only [obey, unmapped] at pressed
        cases pressed
  · rintro ⟨isKey, id, named⟩
    obtain ⟨action, mapped⟩ := Option.isSome_iff_exists.mp isKey
    obtain ⟨method, rfl⟩ := exists_method_of_action mapped
    obtain ⟨value, next, done⟩ := (@obey_on_eq_ok_iff _ panel method widget).mpr ⟨id, named⟩
    exact ⟨next, by rw [obey_press mapped, done]⟩

/-! ## The laws of calls -/

/-- What holds of all calls that a page can make of a widget. -/
structure Lawful [Json.Package] (widget : Widget) : Prop where
  /-- A call that fails has changed nothing, and its fault is one of its own. -/
  failed : ∀ {call : Call} {fault : Fault} {next : Widget},
    obey call widget = .error fault next → next = widget ∧ call.Blames fault
  /-- A call on a panel fails just when there is no such panel. -/
  found : ∀ {name : String} {method : Method},
    (∃ value next, obey (.on name method) widget = .ok value next) ↔ ∃ id : PanelId, id.Named name
  /-- A transfer succeeds just between two different panels that exist, of which the first has a
  value to give. -/
  transferred : ∀ {givers takers : String},
    (∃ value next, obey (.transfer givers takers) widget = .ok value next) ↔
      ∃ source target : PanelId, source.Named givers ∧ target.Named takers ∧ source ≠ target ∧
        ∃ offered, (widget.calculator.panel source).Offers offered
  /-- Setting succeeds just for a value that the setting takes. -/
  taken : ∀ {key value : String},
    (∃ own next, obey (.set key value) widget = .ok own next) ↔ Settings.Takes key value
  /-- Stored settings are loaded just when they can be read. -/
  loaded : ∀ {stored : String},
    (∃ value next, obey (.load stored) widget = .ok value next) ↔
      ∃ settings, Settings.ofJson stored = .ok settings
  /-- A call that answers if it has changed anything says so just when a panel or the settings are
  others than before. -/
  compared : ∀ {call : Call} {value : Answer} {next : Widget}, call.compares = true →
    obey call widget = .ok value next →
      ∃ differs, value = .flag differs ∧
        (differs = true ↔
          (∃ id, next.calculator.panel id ≠ widget.calculator.panel id) ∨
            next.calculator.settings ≠ widget.calculator.settings)
  /-- A key press answers yes just when the key does something and the panel exists. -/
  pressed : ∀ {panel key : String},
    (∃ next, obey (.press panel key) widget = .ok (.flag true) next) ↔
      (Keypad.action? key).isSome = true ∧ ∃ id : PanelId, id.Named panel
  /-- A key that does nothing is answered no, whatever panel it is meant for. -/
  idle : ∀ {key : String}, Keypad.action? key = none → ∀ panel,
    obey (.press panel key) widget = .ok (.flag false) widget
  /-- A key that does something has the effect of a call on the panel. -/
  mapped : ∀ {key : String} {action : Panel.Action}, Keypad.action? key = some action →
    ∃ method : Method, method.action = action ∧ ∀ panel,
      obey (.press panel key) widget =
        match obey (.on panel method) widget with
        | .ok _ next => .ok (.flag true) next
        | .error fault next => .error fault next
  /-- How the names of panels are spelled makes no difference. -/
  alike : ∀ {first second : Call}, first.Alike second →
    AlikeOutcome (obey first widget) (obey second widget)
  /-- A call that is addressed to one panel keeps the other one. -/
  addressed : ∀ {call : Call} {name : String} {id : PanelId}, call.names = [name] →
    id.Named name →
      (widget.after call).calculator.panel id.other = widget.calculator.panel id.other
  /-- Calls keep a panel that none of them reaches. -/
  apart : ∀ {calls : List Call} {id : PanelId}, (∀ call ∈ calls, ¬call.Reaches id) →
    (widget.run calls).calculator.panel id = widget.calculator.panel id
  /-- Calls keep the settings if none of them chooses any. -/
  settings : ∀ {calls : List Call}, (∀ call ∈ calls, call.chooses = false) →
    (widget.run calls).calculator.settings = widget.calculator.settings

/-- A call that is addressed to one panel does not reach the other one. -/
theorem not_reaches_other {call : Call} {name : String} {id : PanelId}
    (addressed : call.names = [name]) (named : id.Named name) : ¬call.Reaches id.other := by
  cases call with
  | on panel method | press panel key =>
      cases addressed
      exact named.not_other
  | transfer source target => cases addressed
  | set key value | load stored | ask query => exact not_false

/-- The laws hold at every moment of every run. -/
theorem lawful_run [Json.Package] (stored : Option String) (calls : List Call) :
    ((start stored).run calls).Lawful where
  failed failed := by
    obtain ⟨answered, same⟩ := obey_eq_error_iff.mp failed
    exact ⟨same, blames_of_answer answered⟩
  found := obey_on_eq_ok_iff
  transferred := obey_transfer_eq_ok_iff
  taken := obey_set_eq_ok_iff
  loaded := obey_load_eq_ok_iff
  compared {call value next} compares done := by
    obtain ⟨_, answers⟩ := does_of_answer (obey_eq_ok_iff.mp done)
    refine ⟨_, answers compares, ?_⟩
    rw [decide_eq_true_iff]
    exact Calculator.ne_iff_differs
  pressed := obey_press_eq_true_iff
  idle unmapped panel := by
    simp only [obey, unmapped]
    rfl
  mapped mapped := by
    obtain ⟨method, rfl⟩ := exists_method_of_action mapped
    exact ⟨method, rfl, fun panel => obey_press mapped panel _⟩
  alike alike := alike_obey alike _
  addressed addressed named := panel_after _ (not_reaches_other addressed named)
  apart := panel_run _
  settings := settings_run _

/-- Calls that fail, and a key that does nothing on a panel that does not exist, leave no trace. -/
example :
    (start none).run [.on "TOP" (.input "7"), .press "side" "F1", .press "side" "8", .press "Top" "=",
        .transfer "bottom" "top", .set "theme" "blue", .load "light", .transfer "top" "Bottom"] =
      ⟨{ top := .showing "7" "7", bottom := .editing "7" }⟩ := by
  decide +kernel

end Widget
end PanelCalc
