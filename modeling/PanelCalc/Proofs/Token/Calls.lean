import Mathlib.Logic.Function.Iterate
import PanelCalc.Proofs.Infix.Spacing

/-!
# Calls for tokens

A cursor may be asked for tokens any number of times, past faults and past the end of its text. A
call comes to rest, at the end or in front of a character that begins no token, or it moves on:
`Cursor.settled_or_taking`. Nothing changes once a call has come to rest, and until then the text
gets shorter with every call. `Cursor.answers_of_text` says what this makes of the answers, and
which of them all tokens of the text are made of.
-/

namespace PanelCalc.Cursor

/-- The cursor after a number of calls. -/
def after (cursor : Cursor) (calls : Nat) : Cursor := (fun here => here.next.2)^[calls] cursor

/-- What a call answers; the first call has the number zero. -/
def answer (cursor : Cursor) (call : Nat) : Except Fault (Option Token) :=
  (cursor.after call).next.1

/-- The answers at the end of a text and in front of a character that begins no token. -/
inductive Settled : Except Fault (Option Token) → Prop where
  | ended : Settled (.ok none)
  | stuck (char : Char) (position : Nat) : Settled (.error (.invalidCharacter char position))

/-- The answers to calls that take something from the text. -/
inductive Taking : Except Fault (Option Token) → Prop where
  | token (token : Token) : Taking (.ok (some token))
  | number (raw : String) (position : Nat) : Taking (.error (.invalidNumber raw position))

@[simp] theorem after_zero (cursor : Cursor) : cursor.after 0 = cursor := rfl

theorem after_succ (cursor : Cursor) (calls : Nat) :
    cursor.after (calls + 1) = cursor.next.2.after calls := rfl

/-- The last of some calls finds the cursor where the others have left it. -/
theorem after_succ_last (cursor : Cursor) (calls : Nat) :
    cursor.after (calls + 1) = (cursor.after calls).next.2 :=
  Function.iterate_succ_apply' _ _ _

@[simp] theorem answer_zero (cursor : Cursor) : cursor.answer 0 = cursor.next.1 := rfl

theorem answer_succ (cursor : Cursor) (call : Nat) :
    cursor.answer (call + 1) = cursor.next.2.answer call := rfl

/-! ## One call -/

/-- Behind a gap there is none to be skipped. -/
theorem skipGaps_skipGaps (cursor : Cursor) : cursor.skipGaps.skipGaps = cursor.skipGaps :=
  @skipGaps_append [] cursor.skipGaps.rest (by simp) cursor.skipGaps_stops cursor.skipGaps.offset

/-- A call depends on the text behind the next gap only. -/
theorem next_skipGaps (cursor : Cursor) : cursor.skipGaps.next = cursor.next := by
  rw [next, skipGaps_skipGaps, next]

/-- Where no gap is to be skipped, a call leaves the cursor as it is or takes some characters. -/
theorem settled_or_taking_of_solid {here : Cursor} (solid : here.skipGaps = here) :
    (Settled here.next.1 ∧ here.next.2 = here) ∨
      (Taking here.next.1 ∧ ∃ taken, taken ≠ [] ∧ here.rest = taken ++ here.next.2.rest) := by
  obtain ⟨rest, offset⟩ := here
  unfold next
  rw [solid]
  cases rest with
  | nil => exact .inl ⟨.ended, rfl⟩
  | cons char behind =>
      have single : [char] ≠ [] ∧ char :: behind = [char] ++ behind := by simp
      simp only
      split
      · exact .inr ⟨.token _, _, single⟩
      split
      · exact .inr ⟨.token _, _, single⟩
      split
      · rename_i starts
        refine .inr ⟨?_, _, Token.splitNumeral_ne_nil behind starts,
          (Token.splitNumeral_append false (char :: behind)).symm⟩
        unfold numeral
        simp only
        split
        · exact .token _
        · exact .number _ _
      split
      · exact .inr ⟨.token _, _, single⟩
      · exact .inl ⟨.stuck char offset, rfl⟩

/-- A call comes to rest and would do the same again, or it takes some characters from the text. -/
theorem settled_or_taking (cursor : Cursor) :
    (Settled cursor.next.1 ∧ cursor.next.2.next = cursor.next) ∨
      (Taking cursor.next.1 ∧ ∃ taken, taken ≠ [] ∧ cursor.rest = taken ++ cursor.next.2.rest) := by
  obtain ⟨gap, _, whole⟩ := cursor.skipGaps_spec
  rcases settled_or_taking_of_solid cursor.skipGaps_skipGaps with
    ⟨settled, kept⟩ | ⟨taking, taken, nonempty, behind⟩
  · rw [next_skipGaps] at settled kept
    exact .inl ⟨settled, by rw [kept, next_skipGaps]⟩
  · rw [next_skipGaps] at taking behind
    refine .inr ⟨taking, gap ++ taken, by simp [nonempty], ?_⟩
    rw [List.append_assoc, ← behind]
    exact whole

/-- No call does both. -/
theorem Taking.not_settled {answer : Except Fault (Option Token)} (taking : Taking answer) :
    ¬Settled answer := by
  intro settled
  cases taking <;> cases settled

/-- Each call leaves the cursor as many bytes further on as the text that it takes has. -/
theorem offset_next {cursor : Cursor} {taken : List Char}
    (whole : cursor.rest = taken ++ cursor.next.2.rest) :
    cursor.next.2.offset = cursor.offset + Text.size taken := by
  have same := cursor.ending_next
  rw [ending, ending, whole, Text.size_append] at same
  omega

/-! ## All calls -/

/-- A call that has come to rest is answered alike ever after. -/
theorem answer_of_settled {cursor : Cursor} {call later : Nat}
    (settled : Settled (cursor.answer call)) (behind : call ≤ later) :
    cursor.answer later = cursor.answer call := by
  induction later, behind using Nat.le_induction with
  | base => rfl
  | succ later _ recurse =>
      have rests : Settled (cursor.after later).next.1 := by
        rw [← recurse] at settled
        exact settled
      rcases settled_or_taking (cursor.after later) with ⟨_, again⟩ | ⟨taking, _⟩
      · rw [← recurse, answer, answer, after_succ_last, again]
      · exact absurd rests taking.not_settled

/-- Some call comes to rest, and before it there are no more calls than characters. -/
theorem exists_settled (cursor : Cursor) :
    ∃ call ≤ cursor.rest.length, Settled (cursor.answer call) := by
  induction size : cursor.rest.length using Nat.strongRecOn generalizing cursor with
  | ind length recurse =>
      rcases settled_or_taking cursor with ⟨settled, _⟩ | ⟨_, taken, nonempty, whole⟩
      · exact ⟨0, Nat.zero_le _, settled⟩
      · have positive := List.length_pos_iff.mpr nonempty
        have shorter := congrArg List.length whole
        rw [List.length_append] at shorter
        obtain ⟨call, inside, settled⟩ := recurse _ (by omega) cursor.next.2 rfl
        exact ⟨call + 1, by omega, settled⟩

/-- Whether the first calls hand out these tokens. -/
def HandsOut (cursor : Cursor) (tokens : List Token) : Prop :=
  ∀ call (before : call < tokens.length), cursor.answer call = .ok (some tokens[call])

theorem handsOut_nil (cursor : Cursor) : cursor.HandsOut [] := by
  intro call before
  exact absurd before (Nat.not_lt_zero call)

theorem handsOut_cons {cursor : Cursor} {token : Token} {others : List Token} :
    cursor.HandsOut (token :: others) ↔
      cursor.next.1 = .ok (some token) ∧ cursor.next.2.HandsOut others := by
  constructor
  · intro handsOut
    exact ⟨handsOut 0 (Nat.succ_pos _), fun call before => handsOut (call + 1) (by simpa)⟩
  · rintro ⟨first, behind⟩ call before
    cases call with
    | zero => exact first
    | succ call => exact behind call (by simpa using before)

/-- All tokens of a text are the ones that are handed out in front of its end. -/
theorem tokens_eq_ok_iff_answer {cursor : Cursor} {tokens : List Token} :
    cursor.tokens = .ok tokens ↔
      cursor.HandsOut tokens ∧ cursor.answer tokens.length = .ok none := by
  induction tokens generalizing cursor with
  | nil =>
      rw [List.length_nil, answer_zero, and_iff_right cursor.handsOut_nil]
      rcases read : cursor.next with ⟨fault | _ | token, behind⟩
      · simp [tokens_of_next_error read]
      · simp [tokens_of_next_none read]
      · simp [tokens_of_next_some read, map_eq_ok_iff]
  | cons first others recurse =>
      rw [handsOut_cons, List.length_cons, answer_succ, and_assoc, ← recurse]
      rcases read : cursor.next with ⟨fault | _ | token, behind⟩
      · simp [tokens_of_next_error read]
      · simp [tokens_of_next_none read]
      · simp only [tokens_of_next_some read, map_eq_ok_iff, List.cons.injEq, Except.ok.injEq,
          Option.some.injEq]
        constructor
        · rintro ⟨rest, readBehind, same, rfl⟩
          exact ⟨same, readBehind⟩
        · rintro ⟨same, readBehind⟩
          exact ⟨others, readBehind, same, rfl⟩

/-- The fault of a text is the first one that is met. -/
theorem tokens_eq_error_iff_answer {cursor : Cursor} {fault : Fault} :
    cursor.tokens = .error fault ↔
      ∃ call, cursor.answer call = .error fault ∧
        ∀ earlier < call, ∀ other, cursor.answer earlier ≠ .error other := by
  constructor
  · intro failed
    induction cursor using Cursor.tokens.induct with
    | case1 cursor own behind stuck =>
        rw [tokens_of_next_error stuck] at failed
        cases failed
        exact ⟨0, by rw [answer_zero, stuck], by simp⟩
    | case2 cursor behind ended =>
        rw [tokens_of_next_none ended] at failed
        cases failed
    | case3 cursor token behind read _ _ recurse | case4 cursor token behind read _ _ recurse =>
        rw [tokens_of_next_some read, map_eq_error_iff] at failed
        obtain ⟨call, met, first⟩ := recurse failed
        refine ⟨call + 1, by rw [answer_succ, read, met], fun earlier before other => ?_⟩
        cases earlier with
        | zero => simp [read]
        | succ earlier =>
            rw [answer_succ, read]
            exact first earlier (by omega) other
  · rintro ⟨call, met, first⟩
    induction call generalizing cursor with
    | zero => exact tokens_of_next_error (Prod.ext met rfl)
    | succ call recurse =>
        rcases read : cursor.next with ⟨own | _ | token, behind⟩
        · exact absurd (by rw [answer_zero, read]) (first 0 (Nat.succ_pos call) own)
        · have settled : Settled (cursor.answer 0) := by
            rw [answer_zero, read]
            exact .ended
          rw [answer_of_settled settled (Nat.zero_le _), answer_zero, read] at met
          cases met
        · rw [answer_succ, read] at met
          rw [tokens_of_next_some read, map_eq_error_iff]
          refine recurse met fun earlier before other => ?_
          have none := first (earlier + 1) (by omega) other
          rwa [answer_succ, read] at none

/-- However often a text is asked for tokens, every call behind one that meets its end meets the
end, every call behind one that is stuck in front of a character is stuck there, and every other
call hands out a token, or tells of a run of digits without a value, and takes some characters from
the text. So one of those two answers is reached within one call more than the text has characters. All
tokens of the text are those handed out in front of its end, and its fault is the first one met. -/
theorem answers_of_text (text : String) :
    let cursor := start text
    (∀ call later, call ≤ later → cursor.answer call = .ok none →
      cursor.answer later = .ok none) ∧
    (∀ call later char position, call ≤ later →
      cursor.answer call = .error (.invalidCharacter char position) →
      cursor.answer later = .error (.invalidCharacter char position)) ∧
    (∀ call, Settled (cursor.answer call) ∨
      (Taking (cursor.answer call) ∧ ∃ taken, taken ≠ [] ∧
        (cursor.after call).rest = taken ++ (cursor.after (call + 1)).rest ∧
        (cursor.after (call + 1)).offset = (cursor.after call).offset + Text.size taken)) ∧
    (∃ call < text.length + 1, Settled (cursor.answer call)) ∧
    (∀ tokens, Token.read text = .ok tokens ↔
      cursor.HandsOut tokens ∧ cursor.answer tokens.length = .ok none) ∧
    (∀ fault, Token.read text = .error fault ↔
      ∃ call, cursor.answer call = .error fault ∧
        ∀ earlier < call, ∀ other, cursor.answer earlier ≠ .error other) := by
  intro cursor
  refine ⟨fun call later behind ended => ?_, fun call later char position behind stuck => ?_,
    fun call => ?_, ?_, fun tokens => tokens_eq_ok_iff_answer,
    fun fault => tokens_eq_error_iff_answer⟩
  · rw [answer_of_settled (ended ▸ .ended) behind, ended]
  · rw [answer_of_settled (stuck ▸ .stuck char position) behind, stuck]
  · rw [after_succ_last]
    exact (settled_or_taking (cursor.after call)).imp (fun settled => settled.1)
      fun ⟨taking, taken, nonempty, whole⟩ =>
        ⟨taking, taken, nonempty, whole, offset_next whole⟩
  · obtain ⟨call, inside, settled⟩ := cursor.exists_settled
    refine ⟨call, Nat.lt_succ_of_le ?_, settled⟩
    rwa [← String.length_toList]

/-- A bare point is told of and passed over, so the tokens behind it are handed out, up to the
multiplication sign, which is no operator. The text as a whole has the fault of the point. -/
theorem answers_of_text_of_two_defects :
    let cursor := start ". 1×2"
    cursor.answer 0 = .error (.invalidNumber "." 0) ∧
    cursor.answer 1 = .ok (some (.number 1 "1")) ∧
    (∀ later, 2 ≤ later → cursor.answer later = .error (.invalidCharacter '×' 3)) ∧
    Token.read ". 1×2" = .error (.invalidNumber "." 0) := by
  intro cursor
  obtain ⟨_, stays, _, _, _, faults⟩ := answers_of_text ". 1×2"
  have point : cursor.answer 0 = .error (.invalidNumber "." 0) := by decide +kernel
  have stuck : cursor.answer 2 = .error (.invalidCharacter '×' 3) := by decide +kernel
  refine ⟨point, by decide +kernel, fun later behind => stays 2 later '×' 3 behind stuck, ?_⟩
  exact (faults _).mpr ⟨0, point, by simp⟩

end PanelCalc.Cursor
