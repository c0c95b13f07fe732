import PanelCalc.Proofs.Calculator.Typing
import PanelCalc.Proofs.Session.Standing

/-!
# Key lines

What a line of keys makes of a session, whatever the session is. White space does not count in it,
neither at its ends nor between the keys: `Session.enter_of_keys`. A line that spells an expression
and ends in an equals sign puts that expression into an empty panel and evaluates it:
`Session.enter_of_writes`.
-/

namespace PanelCalc

namespace Text

variable {Item : Type}

theorem filter_dropWhile (drop : Item → Bool) (items : List Item) :
    (items.dropWhile drop).filter (!drop ·) = items.filter (!drop ·) := by
  induction items with
  | nil => rfl
  | cons item others recurse =>
      cases dropped : drop item with
      | true => simpa [dropped] using recurse
      | false => simp [dropped]

theorem filter_dropEnd (drop : Item → Bool) (items : List Item) :
    (dropEnd drop items).filter (!drop ·) = items.filter (!drop ·) := by
  rw [dropEnd, List.filter_reverse, filter_dropWhile, List.filter_reverse, List.reverse_reverse]

/-- The characters of a text that are no white space. -/
def solid (text : String) : List Char := text.toList.filter (!isBlank ·)

/-- Only white space is lost by trimming. -/
theorem solid_trim (text : String) : solid (trim text) = solid text := by
  rw [solid, trim, String.toList_ofList, filter_dropEnd, filter_dropWhile, solid]

end Text

namespace Session

/-! ## Strokes -/

/-- A character that is no key is white space or unknown. -/
theorem ofChar_of_noKey {char : Char}
    (noKey : char ∉ 'x' :: '=' :: '⌫' :: 'C' :: Keypad.typing) :
    Stroke.ofChar char = if Text.isBlank char then .gap else .unknown char := by
  rw [List.mem_cons, not_or] at noKey
  have unmapped : Keypad.actionOfChar? char = none := by
    cases mapped : Keypad.actionOfChar? char with
    | none => rfl
    | some action => exact absurd (Keypad.mem_of_actionOfChar? mapped) noKey.2
  simp [Stroke.ofChar, noKey.1, unmapped]

/-- White space is no key. -/
theorem ofChar_of_isBlank {char : Char} (blank : Text.isBlank char = true) :
    Stroke.ofChar char = .gap := by
  have keysSolid : ('x' :: '=' :: '⌫' :: 'C' :: Keypad.typing).all (!Text.isBlank ·) := by decide
  have noKey : char ∉ 'x' :: '=' :: '⌫' :: 'C' :: Keypad.typing := by
    intro member
    have visible := List.all_eq_true.mp keysSolid char member
    rw [blank] at visible
    cases visible
  rw [ofChar_of_noKey noKey, if_pos blank]

/-- The actions of the keys among some characters. -/
def keyActions (chars : List Char) : List Panel.Action :=
  chars.filterMap fun char => (Stroke.ofChar char).action?

/-- White space adds nothing to the actions of a line. -/
theorem keyActions_solid (text : String) :
    keyActions (Text.solid text) = keyActions text.toList := by
  unfold Text.solid keyActions
  induction text.toList with
  | nil => rfl
  | cons char others recurse =>
      cases blank : Text.isBlank char with
      | true => simpa [blank, ofChar_of_isBlank blank, Stroke.action?] using recurse
      | false =>
          rw [List.filter_cons_of_pos (by simp [blank]), List.filterMap_cons, List.filterMap_cons,
            recurse]

/-- Strokes that are all known act on the active panel one after another. -/
theorem strokes_eq_ok {strokes : List Stroke} (known : ∀ char, .unknown char ∉ strokes)
    (session : Session) :
    strokes.forM stroke session = .ok () { session with
      calculator := session.calculator.run
        ((strokes.filterMap Stroke.action?).map (.panel session.active)) } := by
  induction strokes generalizing session with
  | nil => rfl
  | cons first others recurse =>
      have othersKnown : ∀ char, .unknown char ∉ others := fun char member =>
        known char (List.mem_cons_of_mem first member)
      cases first with
      | act action => exact recurse othersKnown _
      | gap => exact recurse othersKnown session
      | unknown char => exact absurd List.mem_cons_self (known char)

/-- Trimming a line of known keys leaves known keys and white space. -/
theorem known_of_mem_trim {line : String}
    (known : ∀ char ∈ Text.solid line, ∀ other, Stroke.ofChar char ≠ .unknown other) :
    ∀ char ∈ (Text.trim line).toList, ∀ other, Stroke.ofChar char ≠ .unknown other := by
  intro char member
  cases blank : Text.isBlank char with
  | true => simp [ofChar_of_isBlank blank]
  | false =>
      apply known char
      rw [← Text.solid_trim]
      exact List.mem_filter.mpr ⟨member, by simp [blank]⟩

/-- A colon is no key, so a line of known keys is no command. -/
theorem parse_of_known {line : String}
    (known : ∀ char ∈ (Text.trim line).toList, ∀ other, Stroke.ofChar char ≠ .unknown other) :
    Line.parse line = .keys ((Text.trim line).toList.map Stroke.ofChar) := by
  unfold Line.parse
  split
  · rename_i rest shape
    exact absurd rfl (known ':' (by simp [shape]) ':')
  · rfl

/-- A line of known keys, with white space anywhere, acts on the active panel and on nothing
else. -/
theorem enter_of_keys {line : String}
    (known : ∀ char ∈ Text.solid line, ∀ other, Stroke.ofChar char ≠ .unknown other)
    (session : Session) :
    enter line session = .ok true { session with
      calculator := session.calculator.run
        ((keyActions (Text.solid line)).map (.panel session.active)) } := by
  have trimmedKnown := known_of_mem_trim known
  have strokesKnown : ∀ other, .unknown other ∉ (Text.trim line).toList.map Stroke.ofChar := by
    intro other member
    obtain ⟨char, inLine, unknown⟩ := List.mem_map.mp member
    exact trimmedKnown char inLine other unknown
  have stroked := strokes_eq_ok strokesKnown session
  rw [List.filterMap_map] at stroked
  rw [← Text.solid_trim, keyActions_solid]
  unfold enter
  rw [parse_of_known trimmedKnown]
  exact bind_eq_ok_iff.mpr ⟨(), _, stroked, rfl⟩

/-! ## Expressions -/

/-- `Writes line expression` says that a line, but for its white space, is the expression on keys
and an equals sign. -/
def Writes (line : String) (expression : String) : Prop :=
  ∃ keys, Text.solid line = keys ++ ['='] ∧ List.Forall₂ Spells keys expression.toList

/-- The key of a character of an expression types it. -/
theorem types_of_spells {key char : Char} (spells : Spells key char)
    (isPlain : char ∈ Keypad.plain) :
    ∃ action, Stroke.ofChar key = .act action ∧ Panel.Types action char := by
  rcases spells with rfl | ⟨rfl, rfl | rfl⟩ | ⟨rfl, rfl⟩
  · have differs : key ≠ 'x' := by
      rintro rfl
      exact absurd isPlain (by decide)
    obtain ⟨mapped, types⟩ := Keypad.types_plain isPlain
    exact ⟨_, by simp [Stroke.ofChar, differs, mapped], types⟩
  · exact ⟨.type "×", by decide, "×", rfl, by decide⟩
  · exact ⟨.type "×", by decide, "×", rfl, by decide⟩
  · exact ⟨.type "÷", by decide, "÷", rfl, by decide⟩

theorem keyActions_of_spells {keys text : List Char} (spells : List.Forall₂ Spells keys text)
    (isPlain : ∀ char ∈ text, char ∈ Keypad.plain) :
    (∀ key ∈ keys, ∀ other, Stroke.ofChar key ≠ .unknown other) ∧
      List.Forall₂ Panel.Types (keyActions keys) text := by
  induction spells with
  | nil => exact ⟨by simp, .nil⟩
  | @cons key char keys text first _ recurse =>
      obtain ⟨action, acts, types⟩ := types_of_spells first (isPlain char List.mem_cons_self)
      obtain ⟨known, others⟩ := recurse fun char member =>
        isPlain char (List.mem_cons_of_mem _ member)
      constructor
      · intro key member
        rcases List.mem_cons.mp member with rfl | later
        · simp [acts]
        · exact known key later
      · have split : keyActions (key :: keys) = action :: keyActions keys := by
          simp [keyActions, acts, Stroke.action?]
        rw [split]
        exact .cons types others

/-- A line that writes an expression puts it into an empty active panel and evaluates it there. -/
theorem enter_of_writes {line expression : String} (writes : Writes line expression)
    (isPlain : ∀ char ∈ expression.toList, char ∈ Keypad.plain) {session : Session}
    (empty : session.calculator.panel session.active = {}) :
    enter line session = .ok true { session with
      calculator := session.calculator.setPanel session.active
        (Panel.editing expression).evaluate } := by
  obtain ⟨keys, solid, spells⟩ := writes
  obtain ⟨known, types⟩ := keyActions_of_spells spells isPlain
  have lineKnown : ∀ char ∈ Text.solid line, ∀ other, Stroke.ofChar char ≠ .unknown other := by
    intro char member
    rw [solid, List.mem_append, List.mem_singleton] at member
    rcases member with key | rfl
    · exact known char key
    · intro other impossible
      cases impossible
  have lineActions : keyActions (Text.solid line) = keyActions keys ++ [.evaluate] := by
    rw [solid, keyActions, List.filterMap_append]
    rfl
  rw [enter_of_keys lineKnown, lineActions, Calculator.run_panel, empty,
    Panel.foldl_after_types_evaluate types]

end Session
end PanelCalc
