import Mathlib.Data.List.Forall2
import PanelCalc.Keypad
import PanelCalc.Proofs.Calculator.History

/-!
# Typing on the keys

A panel in which an expression is being typed grows by every character that is typed, and the keys
of an expression put together its very text: `Panel.foldl_after_types`. The multiplication and
division signs of the keys are other characters than those of expressions; `Spells` says which keys
stand for which character.
-/

namespace PanelCalc

/-- The characters of an expression without blanks. -/
def Keypad.plain : List Char := "0123456789.+-*/%()".toList

/-- `Spells key char` says that the character of a key stands for one of an expression. Where there
is no key with the multiplication sign, an `x` does for it. -/
def Spells (key char : Char) : Prop :=
  key = char ∨ char = '*' ∧ (key = 'x' ∨ key = '×') ∨ char = '/' ∧ key = '÷'

namespace Panel

/-- `Types action char` says that an action types a character of an expression. -/
def Types (action : Action) (char : Char) : Prop :=
  ∃ key, action = .type key ∧ spelling key = char.toString

/-- What is typed follows the expression that is being typed. -/
theorem type_editing (expression text : String) :
    (editing expression).type text = editing (expression ++ spelling text) := rfl

/-- Characters that are typed one after another follow the expression as one text. -/
theorem foldl_after_types {actions : List Action} {text : List Char}
    (types : List.Forall₂ Types actions text) (expression : String) :
    actions.foldl after (editing expression) = editing (expression ++ String.ofList text) := by
  induction types generalizing expression with
  | nil => simp
  | @cons action char actions text first _ recurse =>
      obtain ⟨key, rfl, spelled⟩ := first
      have step : (editing expression).after (.type key) =
          editing (expression ++ char.toString) := by
        rw [← spelled]
        exact type_editing expression key
      have joined : char.toString ++ String.ofList text = String.ofList (char :: text) := by
        apply String.toList_injective
        simp
      rw [List.foldl_cons, step, recurse, String.append_assoc, joined]

/-- The characters of an expression that are typed into an empty panel, and evaluated there. -/
theorem foldl_after_types_evaluate {actions : List Action} {expression : String}
    (types : List.Forall₂ Types actions expression.toList) :
    (actions ++ [Action.evaluate]).foldl after {} = (editing expression).evaluate := by
  have typed := foldl_after_types types ""
  rw [String.ofList_toList, String.empty_append] at typed
  rw [List.foldl_append]
  exact congrArg evaluate typed

end Panel

namespace Keypad

/-- The key of a character of an expression types just that character. -/
theorem types_plain {char : Char} (isPlain : char ∈ plain) :
    actionOfChar? char = some (.type char.toString) ∧
      Panel.Types (.type char.toString) char := by
  have itself : plain.all fun char => actionOfChar? char = some (.type char.toString) ∧
      Panel.spelling char.toString = char.toString := by decide
  obtain ⟨mapped, spelled⟩ := of_decide_eq_true (List.all_eq_true.mp itself char isPlain)
  exact ⟨mapped, _, rfl, spelled⟩

/-- A character that has one of two names, of which the other one is longer. -/
theorem eq_of_names {char sign : Char} {name : String} (long : name.length ≠ 1)
    (named : (char.toString = name || char.toString = sign.toString) = true) : char = sign := by
  rw [Bool.or_eq_true, decide_eq_true_eq, decide_eq_true_eq] at named
  rcases named with rfl | same
  · exact absurd (by simp) long
  · simpa using same

/-- Only these characters have keys that do anything. -/
theorem mem_of_actionOfChar? {char : Char} {action : Panel.Action}
    (mapped : actionOfChar? char = some action) : char ∈ '=' :: '⌫' :: 'C' :: typing := by
  simp only [List.mem_cons]
  unfold actionOfChar? action? at mapped
  split at mapped
  case isTrue named => exact .inl (@eq_of_names char '=' _ (by decide) named)
  split at mapped
  case isTrue named => exact .inr (.inl (@eq_of_names char '⌫' _ (by decide) named))
  split at mapped
  case isTrue named => exact .inr (.inr (.inl (@eq_of_names char 'C' _ (by decide) named)))
  simp only [Char.toString_eq_singleton, String.toList_singleton, List.contains_eq_mem,
    decide_eq_true_eq] at mapped
  split at mapped
  case isTrue types => exact .inr (.inr (.inr types))
  case isFalse => cases mapped

end Keypad
end PanelCalc
