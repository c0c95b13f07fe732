import PanelCalc.Proofs.Calculator.History
import PanelCalc.Proofs.Outcome
import PanelCalc.Proofs.Settings.Documents
import PanelCalc.Proofs.Settings.Requests
import PanelCalc.Proofs.Widget.Steps

/-!
# What comes of a call

A call ends in a fault of its own, `blames_of_answer`, or it asks the calculator for one action,
replaces the settings or does nothing at all, `does_of_answer`.
-/

namespace PanelCalc

/-! ## The names of panels -/

/-- Whether a text is the name of a panel. Capitals do not count. -/
def PanelId.Named (id : PanelId) (name : String) : Prop := Text.lowerAscii name = id.name

/-- Whether two texts are alike as names of panels. -/
def PanelId.SameName (first second : String) : Prop :=
  Text.lowerAscii first = Text.lowerAscii second

/-- A panel is found under its names and under no other text. -/
theorem PanelId.ofName_eq_ok_iff {name : String} {id : PanelId} :
    ofName name = .ok id ↔ id.Named name := by
  unfold ofName Named
  by_cases upper : Text.lowerAscii name = "top"
  · cases id <;> simp [upper, PanelId.name]
  · by_cases lower : Text.lowerAscii name = "bottom"
    · cases id <;> simp [lower, PanelId.name]
    · cases id <;> simp [upper, lower, PanelId.name]

/-- A text that names no panel is quoted as it is. -/
theorem PanelId.ofName_eq_error_iff {name : String} {fault : Fault} :
    ofName name = .error fault ↔ fault = .unknownPanel name ∧ ∀ id : PanelId, ¬ id.Named name := by
  constructor
  · intro failed
    refine ⟨?_, fun id named => ?_⟩
    · unfold ofName at failed
      grind
    · rw [ofName_eq_ok_iff.mpr named] at failed
      cases failed
  · rintro ⟨rfl, unnamed⟩
    have noTop := unnamed .top
    have noBottom := unnamed .bottom
    simp_all [ofName, Named, PanelId.name]

/-- No text names both panels. -/
theorem PanelId.Named.not_other {id : PanelId} {name : String} (named : id.Named name) :
    ¬id.other.Named name := by
  intro both
  have same : id.name = id.other.name := named.symm.trans both
  cases id <;> exact absurd same (by decide)

/-! ## What is refused -/

/-- Setting fails for an unknown key or for a value that the setting does not take. -/
theorem Settings.set_eq_error {settings : Settings} {key value : String} {fault : Fault}
    (failed : settings.set key value = .error fault) :
    fault = .unknownSetting key ∨ fault = .invalidSettingValue key value := by
  unfold set TransferMode.parse Theme.parse parseHaptics at failed
  split at failed
  · rename_i isMode
    split at failed <;> cases failed
    exact .inr (by rw [isMode])
  split at failed
  · rename_i isTheme
    split at failed <;> cases failed
    exact .inr (by rw [isTheme])
  split at failed
  · rename_i isHaptics
    simp only at failed
    repeat' split at failed
    all_goals cases failed
    exact .inr (by rw [isHaptics])
  · cases failed
    exact .inl rfl

namespace Widget

/-! ## The faults of a call -/

/-- The names of panels in a call. -/
def Call.names : Call → List String
  | on panel _ | press panel _ | ask (.panel panel) | ask (.hasOffer panel) => [panel]
  | transfer source target => [source, target]
  | set _ _ | load _ | ask .guidance | ask .settings => []

/-- The faults that a call can end in. -/
inductive Call.Blames : Call → Fault → Prop
  /-- No panel has a name that is looked up. -/
  | name {call : Call} {name : String} : name ∈ call.names →
      (∀ id : PanelId, ¬ id.Named name) → Blames call (.unknownPanel name)
  /-- A value is refused. -/
  | refusal {source target reason : String} :
      Blames (.transfer source target) (.transferRefused reason)
  /-- No setting has the key. -/
  | key {key value : String} : Blames (.set key value) (.unknownSetting key)
  /-- A setting does not take the value. -/
  | value {key value : String} : Blames (.set key value) (.invalidSettingValue key value)
  /-- A text does not hold settings. -/
  | blob {stored cause : String} : Blames (.load stored) (.settingsFormat cause)

theorem Call.blames_of_ofName {call : Call} {name : String} {fault : Fault}
    (failed : PanelId.ofName name = .error fault) (member : name ∈ call.names) :
    call.Blames fault := by
  obtain ⟨rfl, unnamed⟩ := PanelId.ofName_eq_error_iff.mp failed
  exact .name member unnamed

/-- An action on a panel is never refused. -/
theorem act_eq_error_iff {widget : Widget} {name : String} {action : Panel.Action}
    {fault : Fault} : widget.act name action = .error fault ↔ PanelId.ofName name = .error fault := by
  rw [act, bind_eq_error_iff]
  constructor
  · rintro (unnamed | ⟨_, _, impossible⟩)
    · exact unnamed
    · cases impossible
  · exact .inl

theorem perform_eq_error_iff {widget : Widget} {action : Action} {fault : Fault} :
    widget.perform action = .error fault ↔ widget.calculator.attempt action = .error fault := by
  rw [perform, bind_pure_eq_error_iff]

/-- A call ends in a fault of its own. -/
theorem blames_of_answer [Json.Package] {widget : Widget} {call : Call} {fault : Fault}
    (failed : widget.answer call = .error fault) : call.Blames fault := by
  cases call with
  | on panel method =>
      rw [answer, map_eq_error_iff, act_eq_error_iff] at failed
      exact Call.blames_of_ofName failed (List.mem_singleton_self panel)
  | press panel key =>
      rw [answer, map_eq_error_iff, press] at failed
      split at failed
      · cases failed
      · rw [bind_pure_eq_error_iff, act_eq_error_iff] at failed
        exact Call.blames_of_ofName failed (List.mem_singleton_self panel)
  | transfer source target =>
      rw [answer, map_eq_error_iff, transfer] at failed
      obtain unnamed | ⟨giver, _, failed⟩ := bind_eq_error_iff.mp failed
      · exact Call.blames_of_ofName unnamed List.mem_cons_self
      obtain unnamed | ⟨taker, _, failed⟩ := bind_eq_error_iff.mp failed
      · exact Call.blames_of_ofName unnamed (List.mem_cons_of_mem _ List.mem_cons_self)
      rw [bind_pure_eq_error_iff, perform_eq_error_iff] at failed
      obtain ⟨reason, rfl⟩ := Calculator.transfer_eq_error failed
      exact .refusal
  | set key value =>
      rw [answer, map_eq_error_iff, Widget.set, perform_eq_error_iff, Calculator.attempt,
        Calculator.set] at failed
      split at failed
      · rename_i own refused
        cases failed
        obtain rfl | rfl := Settings.set_eq_error refused
        · exact .key
        · exact .value
      · cases failed
  | load stored =>
      rw [answer, map_eq_error_iff, load, bind_pure_eq_error_iff] at failed
      obtain ⟨cause, rfl⟩ := Settings.ofJson_eq_error failed
      exact .blob
  | ask query =>
      cases query with
      | panel name =>
          rw [answer, map_eq_error_iff, Widget.panel, bind_pure_eq_error_iff] at failed
          exact Call.blames_of_ofName failed (List.mem_singleton_self name)
      | hasOffer name =>
          rw [answer, map_eq_error_iff, Widget.hasOffer, bind_pure_eq_error_iff] at failed
          exact Call.blames_of_ofName failed (List.mem_singleton_self name)
      | guidance => cases failed
      | settings => cases failed

/-! ## What a call does -/

/-- The actions that a call asks of the calculator. -/
inductive Call.Asks : Call → Action → Prop
  | on {id : PanelId} {name : String} {method : Method} : id.Named name →
      Asks (.on name method) (.panel id method.action)
  | press {id : PanelId} {name key : String} {action : Panel.Action} : id.Named name →
      Keypad.action? key = some action → Asks (.press name key) (.panel id action)
  | transfer {source target : PanelId} {giver taker : String} : source.Named giver →
      target.Named taker → Asks (.transfer giver taker) (.transfer source target)
  | set {key value : String} : Asks (.set key value) (.set key value)

/-- What a call that does not fail can do to a widget. -/
inductive Does [Json.Package] (widget : Widget) : Call → Widget → Prop
  /-- It asks for an action, which is accepted. -/
  | acts {call : Call} {action : Action} {next : Calculator} : call.Asks action →
      widget.calculator.attempt action = .ok next → Does widget call ⟨next⟩
  /-- It replaces the settings. -/
  | adopts {stored : String} {settings : Settings} : Settings.ofJson stored = .ok settings →
      Does widget (.load stored) ⟨{ widget.calculator with settings }⟩
  /-- It presses a key that does nothing. -/
  | passes {name key : String} : Keypad.action? key = none → Does widget (.press name key) widget
  /-- It only asks. -/
  | asks {query : Query} : Does widget (.ask query) widget

/-- Whether a call answers if it has changed anything. -/
def Call.compares : Call → Bool
  | on _ _ | set _ _ | load _ => true
  | press _ _ | transfer _ _ | ask _ => false

theorem perform_eq_ok_iff {widget next : Widget} {action : Action} {differs : Bool} :
    widget.perform action = .ok (differs, next) ↔
      widget.calculator.attempt action = .ok next.calculator ∧
        differs = decide (next.calculator ≠ widget.calculator) := by
  obtain ⟨after⟩ := next
  unfold perform moveTo
  rw [bind_eq_ok_iff]
  constructor
  · rintro ⟨reached, accepted, moved⟩
    cases moved
    exact ⟨accepted, rfl⟩
  · rintro ⟨accepted, rfl⟩
    exact ⟨after, accepted, rfl⟩

/-- What a call does that does not fail. One that answers if it has changed anything compares the
calculator with what it was. -/
theorem does_of_answer [Json.Package] {widget next : Widget} {call : Call} {value : Answer}
    (answered : widget.answer call = .ok (value, next)) :
    Does widget call next ∧
      (call.compares = true → value = .flag (decide (next.calculator ≠ widget.calculator))) := by
  cases call with
  | on panel method =>
      rw [answer, map_eq_ok_iff, act] at answered
      obtain ⟨⟨differs, reached⟩, acted, wrapped⟩ := answered
      cases wrapped
      obtain ⟨id, named, performed⟩ := bind_eq_ok_iff.mp acted
      obtain ⟨accepted, rfl⟩ := perform_eq_ok_iff.mp performed
      exact ⟨.acts (.on (PanelId.ofName_eq_ok_iff.mp named)) accepted, fun _ => rfl⟩
  | press panel key =>
      rw [answer, map_eq_ok_iff, press] at answered
      obtain ⟨⟨isKey, reached⟩, pressed, wrapped⟩ := answered
      cases wrapped
      refine ⟨?_, fun compares => absurd compares Bool.false_ne_true⟩
      split at pressed
      · rename_i unmapped
        cases pressed
        exact .passes unmapped
      · rename_i action mapped
        obtain ⟨⟨differs, reached⟩, acted, wrapped⟩ := bind_eq_ok_iff.mp pressed
        cases wrapped
        obtain ⟨id, named, performed⟩ := bind_eq_ok_iff.mp acted
        obtain ⟨accepted, -⟩ := perform_eq_ok_iff.mp performed
        exact .acts (.press (PanelId.ofName_eq_ok_iff.mp named) mapped) accepted
  | transfer source target =>
      rw [answer, map_eq_ok_iff, transfer] at answered
      obtain ⟨reached, moved, wrapped⟩ := answered
      cases wrapped
      refine ⟨?_, fun compares => absurd compares Bool.false_ne_true⟩
      obtain ⟨giver, givers, moved⟩ := bind_eq_ok_iff.mp moved
      obtain ⟨taker, takers, moved⟩ := bind_eq_ok_iff.mp moved
      obtain ⟨⟨differs, reached⟩, performed, wrapped⟩ := bind_eq_ok_iff.mp moved
      cases wrapped
      obtain ⟨accepted, -⟩ := perform_eq_ok_iff.mp performed
      exact .acts
        (.transfer (PanelId.ofName_eq_ok_iff.mp givers) (PanelId.ofName_eq_ok_iff.mp takers))
        accepted
  | set key value =>
      rw [answer, map_eq_ok_iff, Widget.set] at answered
      obtain ⟨⟨differs, reached⟩, performed, wrapped⟩ := answered
      cases wrapped
      obtain ⟨accepted, rfl⟩ := perform_eq_ok_iff.mp performed
      exact ⟨.acts .set accepted, fun _ => rfl⟩
  | load stored =>
      rw [answer, map_eq_ok_iff, load] at answered
      obtain ⟨⟨differs, reached⟩, loaded, wrapped⟩ := answered
      cases wrapped
      obtain ⟨settings, readable, moved⟩ := bind_eq_ok_iff.mp loaded
      cases moved
      exact ⟨.adopts readable, fun _ => rfl⟩
  | ask query =>
      have same : next = widget := by
        cases query with
        | panel name =>
            obtain ⟨panel, _, wrapped⟩ := map_eq_ok_iff.mp answered
            cases wrapped
            rfl
        | hasOffer name =>
            obtain ⟨isThere, _, wrapped⟩ := map_eq_ok_iff.mp answered
            cases wrapped
            rfl
        | guidance =>
            cases answered
            rfl
        | settings =>
            cases answered
            rfl
      subst same
      exact ⟨.asks, fun compares => absurd compares Bool.false_ne_true⟩

end Widget
end PanelCalc
