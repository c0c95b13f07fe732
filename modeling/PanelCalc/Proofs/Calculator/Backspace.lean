import Mathlib.Algebra.Order.Field.Rat
import Mathlib.Data.List.Induction
import PanelCalc.Panel

/-!
# Taking back what was typed

A backspace takes one character off the text that a panel shows. So as many of them as characters
have been typed leave the text on which the typing went on, whatever the keys were spelled like:
`Panel.typing_taken_back`. Further ones shorten that text from its end until nothing is left.
-/

namespace PanelCalc

namespace Text

/-- Dropping the last character leaves what stands in front of it. -/
theorem dropLast_append_singleton (front : String) (char : Char) :
    dropLast (front ++ String.singleton char) = front := by
  apply String.toList_injective
  simp [dropLast]

end Text

namespace Panel

/-- The keys that compute on with a shown result. -/
def continuingKeys : List String := ["+", "-", "*", "/", "%", "×", "÷", ")"]

/-- `Follows panel key text` says that what a key types follows this text: the expression that is
being typed, or else the shown result if the key computes on with it. -/
inductive Follows (panel : Panel) (key : String) : String → Prop where
  | expression (typing : panel.mode = .editing) : Follows panel key panel.expression
  | result (showing : panel.mode = .result) (continuing : key ∈ continuingKeys) :
      Follows panel key panel.result

/-- How many characters keys type. -/
def typedLength (keys : List String) : Nat := (keys.map fun key => (spelling key).length).sum

/-- The panel behind keys and a number of backspaces. -/
def afterKeys (panel : Panel) (keys : List String) (backspaces : Nat) : Panel :=
  (keys.map Action.type ++ List.replicate backspaces Action.backspace).foldl after panel

/-- `TakenBack panel keys text` says that backspaces take back what keys have typed behind a text,
and then the text itself. -/
structure TakenBack (panel : Panel) (keys : List String) (text : String) : Prop where
  /-- As many of them as characters have been typed leave the text. -/
  restored : panel.afterKeys keys (typedLength keys) = editing text
  /-- Further ones take characters off its end. -/
  shortened : ∀ kept ending, text = kept ++ ending →
    panel.afterKeys keys (typedLength keys + ending.length) = editing kept
  /-- When none is left, the panel is empty and stays so. -/
  emptied : ∀ backspaces, typedLength keys + text.length ≤ backspaces →
    panel.afterKeys keys backspaces = {}

/-- A key that computes on with a result is spelled as a text that does. -/
theorem continues_of_mem {key : String} (continuing : key ∈ continuingKeys) :
    continues (spelling key) = true := by
  have all : ∀ key ∈ continuingKeys, continues (spelling key) = true := by decide
  exact all key continuing

/-- What a key types is put behind the text that it follows. -/
theorem Follows.type {panel : Panel} {key text : String} (follows : panel.Follows key text) :
    panel.type key = editing (text ++ spelling key) := by
  cases follows with
  | expression typing => simp [Panel.type, typing]
  | result showing continuing => simp [Panel.type, showing, continues_of_mem continuing]

/-- Keys put what they type behind the expression that is being typed. -/
theorem foldl_type (keys : List String) (expression : String) :
    ∃ typed, typed.length = typedLength keys ∧
      (keys.map Action.type).foldl after (editing expression) = editing (expression ++ typed) := by
  induction keys generalizing expression with
  | nil => exact ⟨"", rfl, by simp⟩
  | cons key others recurse =>
      obtain ⟨typed, count, onward⟩ := recurse (expression ++ spelling key)
      refine ⟨spelling key ++ typed, ?_, ?_⟩
      · simp [typedLength, count]
      · rw [← String.append_assoc]
        exact onward

/-- An empty panel stays empty. -/
theorem foldl_backspace_empty (backspaces : Nat) :
    (List.replicate backspaces Action.backspace).foldl after {} = {} := by
  induction backspaces with
  | zero => rfl
  | succ backspaces recurse => exact recurse

/-- Backspaces take as many characters off the end of the expression that is being typed. -/
theorem foldl_backspace (kept ending : String) :
    (List.replicate ending.length Action.backspace).foldl after (editing (kept ++ ending)) =
      editing kept := by
  obtain ⟨chars, rfl⟩ : ∃ chars, ending = String.ofList chars := ⟨ending.toList, by simp⟩
  rw [String.length_ofList]
  -- The characters are taken off from the last one to the first.
  induction chars using List.reverseRecOn with
  | nil => simp
  | append_singleton front last recurse =>
      have step : (editing (kept ++ String.ofList (front ++ [last]))).after .backspace =
          editing (kept ++ String.ofList front) := by
        have dropped := Text.dropLast_append_singleton (kept ++ String.ofList front) last
        rw [String.append_assoc] at dropped
        simpa [after, backspace, shown, editing] using dropped
      rw [List.length_append, List.length_singleton, List.replicate_succ, List.foldl_cons, step,
        recurse]

/-- Behind keys and as many backspaces as characters have been typed, the panel is as if only the
further backspaces had been pressed on the text. -/
theorem afterKeys_add {panel : Panel} {first text : String} (follows : panel.Follows first text)
    (others : List String) (further : Nat) :
    panel.afterKeys (first :: others) (typedLength (first :: others) + further) =
      (List.replicate further Action.backspace).foldl after (editing text) := by
  obtain ⟨typed, count, behind⟩ := foldl_type others (text ++ spelling first)
  have length : typedLength (first :: others) = (spelling first ++ typed).length := by
    rw [String.length_append, count]
    rfl
  have keyed : ((first :: others).map Action.type).foldl after panel =
      editing (text ++ (spelling first ++ typed)) := by
    rw [← String.append_assoc, ← behind, ← follows.type]
    rfl
  rw [afterKeys, List.foldl_append, keyed, length, ← List.replicate_append_replicate,
    List.foldl_append, foldl_backspace]

/-- Backspaces take back what was typed: as many of them as characters have been typed leave the
text that the first key followed, and further ones take its characters one by one off its end. -/
theorem typing_taken_back {panel : Panel} {first text : String}
    (follows : panel.Follows first text) (others : List String) :
    TakenBack panel (first :: others) text := by
  have further := afterKeys_add follows others
  constructor
  case restored => exact further 0
  case shortened =>
    rintro kept ending rfl
    rw [further, foldl_backspace]
  case emptied =>
    intro backspaces enough
    obtain ⟨spare, rfl⟩ := Nat.exists_eq_add_of_le enough
    rw [Nat.add_assoc, further, ← List.replicate_append_replicate, List.foldl_append]
    have all := foldl_backspace "" text
    rw [String.empty_append] at all
    rw [all]
    exact foldl_backspace_empty spare

/-- A multiplication sign of the keys follows a shown result, and letters behind it count as one
character each; a text behind an error follows the expression. -/
theorem typing_taken_back_of_sign :
    (showing "1+2" "3").Follows "×" "3" ∧
      TakenBack (showing "1+2" "3") ["×", "(é²"] "3" ∧
      ({ expression := "1/0", error := some errorText } : Panel).Follows "×2" "1/0" ∧
      TakenBack { expression := "1/0", error := some errorText } ["×2"] "1/0" := by
  have onResult : (showing "1+2" "3").Follows "×" "3" := .result rfl (by decide)
  have onExpression :
      ({ expression := "1/0", error := some errorText } : Panel).Follows "×2" "1/0" :=
    .expression rfl
  exact ⟨onResult, typing_taken_back onResult ["(é²"], onExpression,
    typing_taken_back onExpression []⟩

end Panel
end PanelCalc
