import PanelCalc.Panel
import PanelCalc.Proofs.Decimal.Notation
import PanelCalc.Proofs.Infix.Shown
import PanelCalc.Proofs.Infix.Spacing

/-!
# Evaluating what a panel shows

A result that is displayed without an exponent is its own formula, so evaluating it again changes
nothing: `Panel.evaluate_plain_result`. What a panel offers is computed from its expression without
the white space around it, whereas an evaluation takes the expression as it is. The two agree unless
that white space is none of the gaps between tokens: `Panel.offer_agrees_iff`.
-/

namespace PanelCalc

namespace Text

/-- The white space that trimming takes away in front of a text and behind it. -/
def margins (text : String) : List Char :=
  text.toList.takeWhile isBlank ++ (text.toList.dropWhile isBlank).reverse.takeWhile isBlank

/-- A text consists of what trimming leaves and of its margins. -/
theorem exists_margins (text : String) :
    ∃ front back, text.toList = front ++ (trim text).toList ++ back ∧
      (∀ char, char ∈ margins text ↔ char ∈ front ∨ char ∈ back) ∧
      ∀ char ∈ margins text, isBlank char = true := by
  have whole := List.takeWhile_append_dropWhile (p := isBlank) (l := text.toList)
  have inner := congrArg List.reverse (List.takeWhile_append_dropWhile (p := isBlank)
    (l := (text.toList.dropWhile isBlank).reverse))
  rw [List.reverse_reverse, List.reverse_append] at inner
  refine ⟨text.toList.takeWhile isBlank,
    ((text.toList.dropWhile isBlank).reverse.takeWhile isBlank).reverse, ?_, ?_, ?_⟩
  · rw [trim, String.toList_ofList, dropEnd, List.append_assoc, inner, whole]
  · intro char
    rw [margins, List.mem_append, List.mem_reverse]
  · intro char member
    rcases List.mem_append.mp member with front | back
    · exact List.mem_takeWhile_imp front
    · exact List.mem_takeWhile_imp back

/-- Trimming leaves nothing just of white space. -/
theorem trim_eq_empty_iff (text : String) :
    trim text = "" ↔ ∀ char ∈ text.toList, isBlank char = true := by
  constructor
  · intro empty char member
    obtain ⟨front, back, whole, inMargins, blank⟩ := exists_margins text
    rw [whole, empty] at member
    exact blank char (by simpa [inMargins] using member)
  · intro blank
    rw [trim, List.dropWhile_eq_nil_iff.mpr blank]
    rfl

end Text

namespace Panel

open Decimal (display exact smallBits)

/-! ## Results -/

/-- The finite numbers that are displayed without an exponent are zero and those from the number
nearest to a millionth on below `10 ^ 16`. What is displayed for one of them has a value, for which
the same is displayed. So a panel that shows it as a result keeps it as both expression and result
when evaluated, and another evaluation changes nothing. -/
theorem evaluate_plain_result {value : Float} (bounded : Binary64.isFinite value = true) :
    ('e' ∉ (display value).toList ↔
      exact value = 0 ∨
        Binary64.amountOfBits smallBits ≤ |exact value| ∧ |exact value| < 10 ^ 16) ∧
    ('e' ∉ (display value).toList →
      (∃ result, Formula.value (display value) = .ok result ∧ display result = display value) ∧
      ∀ panel : Panel, panel.mode = .result → panel.result = display value →
        panel.evaluate = .showing (display value) (display value) ∧
          panel.evaluate.evaluate = panel.evaluate) := by
  refine ⟨?_, fun plain => ?_⟩
  · rw [Decimal.letter_mem_display_iff bounded, not_and_or, not_not, not_or, not_lt, not_le]
  · have again := Formula.shown_display bounded plain
    obtain ⟨result, valued, displayed⟩ := Formula.shown_eq_ok_iff.mp again
    refine ⟨⟨result, valued, displayed.symm⟩, fun panel showsResult isResult => ?_⟩
    have evaluated : panel.evaluate = .showing (display value) (display value) := by
      simp [evaluate, shown, showsResult, isResult, again]
    refine ⟨evaluated, ?_⟩
    rw [evaluated]
    simp [evaluate, shown, showing, again]

/-- The largest number below ten thousand million is displayed as that number itself, with a sign in
front of it if negative. -/
theorem evaluate_plain_result_of_carry :
    let value := Binary64.ofMagnitude true 0x4202A05F1FFFFFFF
    let panel : Panel := .showing "-9999999999.999999" "-10000000000"
    Binary64.isFinite value = true ∧ display value = "-10000000000" ∧
      panel.evaluate = .showing "-10000000000" "-10000000000" ∧
      panel.evaluate.evaluate = panel.evaluate := by
  intro value panel
  have bounded : Binary64.isFinite value = true := by decide +kernel
  have text : display value = "-10000000000" := by decide +kernel
  have law := (evaluate_plain_result bounded).2
  rw [text] at law
  obtain ⟨_, evaluated⟩ := law (by decide)
  exact ⟨bounded, text, evaluated panel rfl rfl⟩

/-! ## Offers -/

/-- What a panel offers is what an evaluation would show as its result, and it refuses to compute
its expression just when an evaluation would fail. -/
def Agrees (panel : Panel) : Prop :=
  (∀ result, panel.offer = .ok result ↔
    panel.evaluate.mode = .result ∧ panel.evaluate.result = result) ∧
  (panel.offer = .error notComputable ↔ panel.evaluate.error = some errorText)

/-- Whether a panel shows a result. -/
def ShowsResult (panel : Panel) : Prop := panel.mode = .result ∧ panel.result ≠ ""

/-- A panel that shows no result, into which something has been typed, offers the value of its
trimmed expression. -/
theorem offer_of_typed {panel : Panel} (noResult : ¬panel.ShowsResult)
    (typed : ∃ char ∈ panel.expression.toList, Text.isBlank char = false) :
    panel.offer =
      (Formula.shown (Text.trim panel.expression)).mapError fun _ => notComputable := by
  have nonempty : Text.trim panel.expression ≠ "" := by
    rw [ne_eq, Text.trim_eq_empty_iff]
    simpa using typed
  rw [offer, if_neg (by simpa [ShowsResult] using noResult)]
  simp only [if_neg nonempty]
  cases Formula.shown (Text.trim panel.expression) <;> rfl

/-- An offer agrees with an evaluation just when trimming the expression changes no result. -/
theorem agrees_iff_shown {panel : Panel} (editing : panel.mode = .editing)
    (typed : ∃ char ∈ panel.expression.toList, Text.isBlank char = false) :
    panel.Agrees ↔ ∀ result,
      Formula.shown (Text.trim panel.expression) = .ok result ↔
        Formula.shown panel.expression = .ok result := by
  have isExpression : panel.shown = panel.expression := by simp [shown, editing]
  have noResult : ¬panel.ShowsResult := by simp [ShowsResult, editing]
  unfold Agrees
  rw [offer_of_typed noResult typed, evaluate, isExpression]
  cases trimmed : Formula.shown (Text.trim panel.expression) <;>
    cases whole : Formula.shown panel.expression <;>
    simp [Except.mapError, showing]

/-- What is offered by a panel into which something has been typed agrees with an evaluation just
when the white space around the expression consists of gaps between tokens, or the expression
without it has no value. Any other white space makes the evaluation fail. -/
theorem offer_agrees_iff {panel : Panel} (editing : panel.mode = .editing)
    (typed : ∃ char ∈ panel.expression.toList, Text.isBlank char = false) :
    panel.Agrees ↔
      (∀ char ∈ Text.margins panel.expression, Token.isGap char = true) ∨
        ∃ fault, Formula.value (Text.trim panel.expression) = .error fault := by
  obtain ⟨front, back, whole, inMargins, blank⟩ := Text.exists_margins panel.expression
  rw [agrees_iff_shown editing typed]
  by_cases gaps : ∀ char ∈ Text.margins panel.expression, Token.isGap char = true
  · refine iff_of_true (fun result => ?_) (.inl gaps)
    have padded := @Formula.shown_padded_eq_ok_iff front back
      (fun char member => gaps char ((inMargins char).mpr (.inl member)))
      (fun char member => gaps char ((inMargins char).mpr (.inr member)))
      (Text.trim panel.expression) result
    rw [← whole, String.ofList_toList] at padded
    exact padded.symm
  · have refused : ∀ result, Formula.shown panel.expression ≠ .ok result := by
      intro result computed
      obtain ⟨value, valued, _⟩ := Formula.shown_eq_ok_iff.mp computed
      refine gaps fun char member => Token.isGap_of_isBlank ?_ (blank char member)
      refine Formula.isLegible_of_value valued char ?_
      rw [whole, List.append_assoc, List.mem_append, List.mem_append]
      exact ((inMargins char).mp member).imp_right .inr
    rw [or_iff_right gaps]
    constructor
    · intro same
      cases trimmed : Formula.shown (Text.trim panel.expression) with
      | error fault => exact ⟨fault, Formula.shown_eq_error_iff.mp trimmed⟩
      | ok result => exact absurd ((same result).mp trimmed) (refused result)
    · rintro ⟨fault, failed⟩ result
      rw [Formula.shown_eq_error_iff.mpr failed]
      exact iff_of_false (fun stuck => by cases stuck) (refused result)

/-- A third with a blank in front of it and a line end behind it. -/
theorem offer_agrees_of_spaced_quotient :
    let panel := editing " 1/3\n"
    panel.Agrees ∧ panel.offer = .ok "0.33333333333333" ∧ panel.evaluate.mode = .result ∧
      panel.evaluate.result = "0.33333333333333" := by
  intro panel
  have gaps : (Text.margins " 1/3\n").all Token.isGap = true := by decide
  have agrees : panel.Agrees :=
    (offer_agrees_iff rfl ⟨'1', by decide, by decide⟩).mpr (.inl (List.all_eq_true.mp gaps))
  have offered : panel.offer = .ok "0.33333333333333" := by decide +kernel
  exact ⟨agrees, offered, (agrees.1 _).mp offered⟩

/-- A number with a no-break space behind it is offered, but cannot be evaluated. -/
theorem offer_disagrees_of_no_break_space :
    let panel := editing "1\u00a0"
    panel.mode = .editing ∧ (∃ char ∈ panel.expression.toList, Text.isBlank char = false) ∧
      panel.offer = .ok "1" ∧
      panel.evaluate = { expression := "1\u00a0", error := some errorText } ∧ ¬panel.Agrees := by
  intro panel
  have evaluated : panel.evaluate = { expression := "1\u00a0", error := some errorText } := by
    decide +kernel
  have offered : panel.offer = .ok "1" := by decide +kernel
  refine ⟨rfl, ⟨'1', by decide, by decide⟩, offered, evaluated, fun agrees => ?_⟩
  have shows := ((agrees.1 "1").mp offered).1
  rw [evaluated] at shows
  cases shows

end Panel
end PanelCalc
