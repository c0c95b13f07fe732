import PanelCalc.Proofs.Infix.Replacement
import PanelCalc.Proofs.Infix.Spacing
import PanelCalc.Proofs.Postfix.Ordering
import PanelCalc.Proofs.Token.Lexemes

/-!
# Factors without parentheses

A factor binds more tightly than every operator on two operands, so parentheses around it make no
difference, whatever stands in front of it and behind: `Postfix.ofInfix_group_of_factor`. Without
them its negations wait a little longer, up to the next token, which releases them before anything
older: `Conversion.Took.accept_of_followsOperand`. `Formula.sameOrder_of_group` says the same of
texts.
-/

namespace PanelCalc

namespace Token

/-- Whether a token follows an operand: an operator that joins it to another one, or a parenthesis
that is closed behind it. -/
def followsOperand : Token → Bool
  | operator (.binary _) | paren .closing => true
  | number _ _ | operator .negate | paren .opening => false

/-- Such a token is written as a sign. -/
theorem isSign_of_followsOperand {token : Token} (follows : token.followsOperand = true) :
    token.IsWritten ∧ ∀ value raw, token ≠ .number value raw := by
  match token with
  | paren .closing => exact ⟨trivial, by simp⟩
  | operator (.binary operation) => exact ⟨by simp [IsWritten], by simp⟩

end Token

namespace Conversion

open Expression (Derives)

/-- A conversion that has passed on an operand, and holds nothing of it back. -/
def withOperand (before : Conversion) (ordered : List Token) : Conversion :=
  { before with passed := ordered.reverse ++ before.passed, operandDue := false }

variable {tree : Expression} {before after : Conversion}

/-- What follows a factor finds a conversion as if nothing of the factor were held back. -/
theorem Took.accept_of_followsOperand {token : Token} (took : Took .factor tree before after)
    (follows : token.followsOperand = true) :
    after.accept token = (before.withOperand tree.postorder).accept token := by
  obtain ⟨held, waiting, passed, due, tight⟩ := took
  match token with
  | .paren .closing =>
      simp only [accept, withOperand, waiting, close?_map_append, ← passed]
      cases close? before.waiting with
      | none => rfl
      | some closed => simp only [Option.map_some, pass_append]
  | .operator (.binary operation) =>
      have tightly : ∀ op ∈ held, (Operator.binary operation).precedence ≤ op.precedence := by
        intro op member
        refine Nat.le_trans ?_ (tight op member)
        cases operation <;> decide
      have binary : role false (.binary operation) = .binary operation := by simp [role]
      simp only [accept, withOperand, due, binary, waiting, release_append held tightly, ← passed,
        pass_append]

/-- The end behind a factor finds it so too. -/
theorem Took.result_eq (took : Took .factor tree before after) :
    after.result = (before.withOperand tree.postorder).result := by
  obtain ⟨held, waiting, passed, _, _⟩ := took
  simp only [result, withOperand, waiting, finish?_map_append, ← passed]
  cases finish? before.waiting with
  | none => rfl
  | some ops => simp only [Option.map_some, pass_append]

/-- Whether an operand is due behind tokens is seen from the last of them. -/
theorem dueBehind_of_foldlM {tokens : List Token} (run : tokens.foldlM accept {} = .ok after) :
    after.DueBehind tokens.getLast? := by
  refine foldlM_keeps (fun taken conversion => conversion.DueBehind taken.getLast?) rfl ?_ run
  intro taken token others conversion next _ _ accepted
  rw [List.getLast?_concat]
  exact operandDue_of_accept accepted

end Conversion

namespace Postfix

open Conversion (accept)
open Expression (Derives)

/-- Parentheses around a factor make no difference where an operand is due, in front of a binary
operator, of a closing parenthesis and of the end. -/
theorem ofInfix_group_of_factor {operand before behind : List Token} {tree : Expression}
    (derived : Derives .factor operand tree)
    (due : ∀ last ∈ before.getLast?, last.endsOperand = false)
    (follows : ∀ next ∈ behind.head?, next.followsOperand = true) :
    ofInfix (before ++ operand ++ behind) =
      ofInfix (before ++ (.paren .opening :: operand ++ [.paren .closing]) ++ behind) := by
  cases start : before.foldlM accept {} with
  | error fault =>
      simp only [ofInfix, List.append_assoc, List.foldlM_append, start]
      rfl
  | ok reached =>
      have isDue : reached.operandDue = true := by
        rw [Conversion.dueBehind_of_foldlM start, Option.all_eq_true]
        exact fun last isLast => by simp [due last isLast]
      obtain ⟨after, taken, took⟩ := Conversion.foldlM_accept_of_derives derived reached isDue
        (Conversion.settled_factor _)
      have grouped := Conversion.takesAsOperand_group
        (ofInfix_of_derives (.term (.factor derived))) reached
      rw [ofInfix, ofInfix, foldlM_append_of_ok _ ((foldlM_append_of_ok _ start).trans taken),
        foldlM_append_of_ok _ ((foldlM_append_of_ok _ start).trans grouped)]
      cases behind with
      | nil => exact took.result_eq
      | cons next others =>
          rw [List.foldlM_cons, List.foldlM_cons,
            took.accept_of_followsOperand (follows next rfl)]
          rfl

end Postfix

/-- A number behind any number of minus signs is a factor. -/
theorem Expression.derives_negated (value : Float) (raw : String) (count : Nat) :
    ∃ tree, Expression.Derives .factor
      (List.replicate count (.operator (.binary .sub)) ++ [.number value raw]) tree := by
  induction count with
  | zero => exact ⟨_, .number value raw⟩
  | succ count recurse =>
      obtain ⟨tree, derived⟩ := recurse
      exact ⟨_, .negate derived⟩

/-! ## Texts -/

theorem Token.read_empty : Token.read "" = .ok [] := Cursor.tokens_of_next_none rfl

/-- A token other than a number is read wherever a text begins with it. -/
theorem Token.read_cons {token : Token} (written : token.IsWritten)
    (noNumber : ∀ value raw, token ≠ .number value raw) {rest : String} {tokens : List Token}
    (read : Token.read (token.text ++ rest) = .ok tokens) : tokens.head? = some token := by
  obtain ⟨offset, first⟩ := @Cursor.next_sign [] rest.toList _ (by simp) written noNumber 0
  have start : Cursor.start (token.text ++ rest) = ⟨[] ++ token.text.toList ++ rest.toList, 0⟩ := by
    simp [Cursor.start]
  rw [Token.read, start, Cursor.tokens_of_next_some first, map_eq_ok_iff] at read
  obtain ⟨others, _, rfl⟩ := read
  rfl

/-- A parenthesis is read behind any text. -/
theorem Token.read_append_paren_eq_ok_iff (side : Paren) {sign : String}
    (isSign : (paren side).text = sign) {front : String} {tokens : List Token} :
    read (front ++ sign) = .ok tokens ↔
      ∃ before, read front = .ok before ∧ before ++ [paren side] = tokens := by
  subst isSign
  have written : (paren side).IsWritten := trivial
  obtain ⟨char, text, stops, _⟩ := @startsNumeral_of_text (paren side) (by simp) written
  rw [read_append_eq_ok_iff (by simpa [text] using stops), written.read_text]
  simp

namespace Formula

/-- Whether a text may follow an operand: it is empty or begins with an operation sign or a closing
parenthesis. -/
def FollowsOperand (text : String) : Prop :=
  text = "" ∨
    ∃ (token : Token) (rest : String), token.followsOperand = true ∧ text = token.text ++ rest

/-- Whether an operand is due behind a text, as far as it is read. -/
def AwaitsOperand (text : String) : Prop :=
  ∀ tokens, Token.read text = .ok tokens → ∀ last ∈ tokens.getLast?, last.endsOperand = false

/-- Whether two texts have the same tokens in postfix order, or neither has any. -/
def SameOrder (left right : String) : Prop :=
  ∀ ordered, postfixed left = .ok ordered ↔ postfixed right = .ok ordered

theorem awaitsOperand_empty : AwaitsOperand "" := by
  intro tokens read
  rw [Token.read_empty] at read
  cases read
  simp

/-- A text that may follow an operand continues no numeral. -/
theorem FollowsOperand.stops {text : String} (follows : FollowsOperand text) :
    ∀ char ∈ text.toList.head?, Token.startsNumeral char = false := by
  rcases follows with rfl | ⟨token, rest, follows, rfl⟩
  · simp
  · obtain ⟨written, noNumber⟩ := Token.isSign_of_followsOperand follows
    obtain ⟨char, text, stops, _⟩ := Token.startsNumeral_of_text noNumber written
    simpa [text] using stops

/-- The first token of such a text may follow an operand. -/
theorem FollowsOperand.head {text : String} (follows : FollowsOperand text) {tokens : List Token}
    (read : Token.read text = .ok tokens) :
    ∀ next ∈ tokens.head?, next.followsOperand = true := by
  rcases follows with rfl | ⟨token, rest, follows, rfl⟩
  · rw [Token.read_empty] at read
    cases read
    simp
  · obtain ⟨written, noNumber⟩ := Token.isSign_of_followsOperand follows
    rw [Token.read_cons written noNumber read]
    simpa using follows

/-- Parentheses around the text of a factor make no difference where an operand is due, in front of
an operation sign, of a closing parenthesis and of the end. -/
theorem sameOrder_of_group {front text behind : String}
    (factor : ∀ tokens, Token.read text = .ok tokens →
      ∃ tree, Expression.Derives .factor tokens tree)
    (stops : ∀ char ∈ text.toList.head?, Token.startsNumeral char = false)
    (awaits : AwaitsOperand front) (follows : FollowsOperand behind) :
    SameOrder (front ++ text ++ behind) (front ++ "(" ++ text ++ ")" ++ behind) := by
  intro ordered
  have opening := @Token.read_append_paren_eq_ok_iff .opening "(" rfl
  have closing := @Token.read_append_paren_eq_ok_iff .closing ")" rfl
  simp only [postfixed, bind_eq_ok_iff, Token.read_append_eq_ok_iff follows.stops,
    Token.read_append_eq_ok_iff stops, opening, closing]
  -- On both sides the three texts are read as the same tokens, which are then put into order.
  constructor
  · rintro ⟨_, ⟨_, after, ⟨before, operand, first, second, rfl⟩, third, rfl⟩, converted⟩
    obtain ⟨tree, derived⟩ := factor operand second
    rw [Postfix.ofInfix_group_of_factor derived (awaits before first) (follows.head third)]
      at converted
    exact ⟨_, ⟨_, after, ⟨_, ⟨_, operand, ⟨before, first, rfl⟩, second, rfl⟩, rfl⟩, third, rfl⟩, by
      simpa using converted⟩
  · rintro ⟨_, ⟨_, after, ⟨_, ⟨_, operand, ⟨before, first, rfl⟩, second, rfl⟩, rfl⟩, third, rfl⟩,
      converted⟩
    obtain ⟨tree, derived⟩ := factor operand second
    refine ⟨_, ⟨_, after, ⟨before, operand, first, second, rfl⟩, third, rfl⟩, ?_⟩
    rw [Postfix.ofInfix_group_of_factor derived (awaits before first) (follows.head third)]
    simpa using converted

end Formula

end PanelCalc
