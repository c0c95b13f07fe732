import PanelCalc.Proofs.Infix.Spacing

/-!
# Runs of digits

A run is a row of digits with at most one point among them. What is split off as a numeral is the
longest run that stands at its place: `longestRun_splitNumeral`. Where a run ends is decided by the
character behind it alone, by `longestRun_append_iff`.
-/

namespace PanelCalc.Decimal

open Token (splitNumeral splitNumeral_append splitNumeral_fst startsNumeral startsNumeral_of_mem)

/-- Whether a text consists of digits with at most one point among them. -/
structure IsRun (text : List Char) : Prop where
  figures : ∀ char ∈ text, isDigit char = true ∨ char = '.'
  points : text.count '.' ≤ 1

/-- `LongestRun run text` says that a text begins with a run and with no longer one. -/
structure LongestRun (run text : List Char) : Prop where
  begins : run <+: text
  isRun : IsRun run
  longest : ∀ other, other <+: text → IsRun other → other.length ≤ run.length

/-- The beginning of a run is a run. -/
theorem IsRun.shorten {run front : List Char} (isRun : IsRun run) (begins : front <+: run) :
    IsRun front :=
  ⟨fun char member => isRun.figures char (begins.subset member),
    (begins.sublist.count_le '.').trans isRun.points⟩

/-- A run is the longest one if it does not go on with the next character. -/
theorem longestRun_append_iff {run rest : List Char} :
    LongestRun run (run ++ rest) ↔ IsRun run ∧ ∀ char ∈ rest.head?, ¬ IsRun (run ++ [char]) := by
  constructor
  · intro longestRun
    refine ⟨longestRun.isRun, fun char first longer => ?_⟩
    obtain ⟨behind, rfl⟩ := List.head?_eq_some_iff.mp first
    have shorter := longestRun.longest (run ++ [char]) ⟨behind, by simp⟩ longer
    simp at shorter
  · rintro ⟨isRun, stops⟩
    refine ⟨List.prefix_append run rest, isRun, fun other begins otherRun => ?_⟩
    by_contra longer
    obtain ⟨extra, rfl⟩ := List.prefix_of_prefix_length_le (List.prefix_append run rest) begins
      (Nat.le_of_not_le longer)
    cases extra with
    | nil => simp at longer
    | cons char others =>
        obtain ⟨behind, rfl⟩ := (List.prefix_append_right_inj run).mp begins
        exact stops char rfl (otherRun.shorten ⟨others, by simp⟩)

/-- A longest run stays one when the text behind it is cut off. -/
theorem LongestRun.shorten {run front text : List Char} (longestRun : LongestRun run text)
    (begins : run <+: front) (shorter : front <+: text) : LongestRun run front :=
  ⟨begins, longestRun.isRun, fun other otherBegins =>
    longestRun.longest other (otherBegins.trans shorter)⟩

/-- No text has two longest runs. -/
theorem LongestRun.unique {first second text : List Char} (one : LongestRun first text)
    (other : LongestRun second text) : first = second :=
  (List.prefix_of_prefix_length_le one.begins other.begins
    (other.longest first one.begins one.isRun)).eq_of_length_le
      (one.longest second other.begins other.isRun)

/-- How many points may follow. -/
def pointsLeft (pointSeen : Bool) : Nat := if pointSeen then 0 else 1

/-- A numeral has no more points than it may have. -/
theorem count_splitNumeral_le (pointSeen : Bool) (text : List Char) :
    (splitNumeral pointSeen text).1.count '.' ≤ pointsLeft pointSeen := by
  induction text generalizing pointSeen with
  | nil => simp [splitNumeral]
  | cons char rest recurse =>
      simp only [splitNumeral]
      split
      · rename_i digit
        have noPoint : char ≠ '.' := by
          rintro rfl
          exact absurd digit (by decide)
        simpa [List.count_cons, noPoint] using recurse pointSeen
      · split
        · rename_i point
          simp only [Bool.and_eq_true, decide_eq_true_eq, Bool.not_eq_true'] at point
          have none := recurse true
          simp [pointsLeft, point.1, point.2] at none ⊢
          exact none
        · simp

/-- No longer row of digits and points, with no more points than there may be, begins a text. -/
theorem length_le_splitNumeral {pointSeen : Bool} {text other : List Char} (begins : other <+: text)
    (figures : ∀ char ∈ other, isDigit char = true ∨ char = '.')
    (points : other.count '.' ≤ pointsLeft pointSeen) :
    other.length ≤ (splitNumeral pointSeen text).1.length := by
  induction text generalizing pointSeen other with
  | nil => simp [List.prefix_nil.mp begins]
  | cons char rest recurse =>
      rcases List.prefix_cons_iff.mp begins with rfl | ⟨behind, rfl, onward⟩
      · simp
      · rw [List.forall_mem_cons] at figures
        simp only [splitNumeral]
        split
        · rename_i digit
          have noPoint : char ≠ '.' := by
            rintro rfl
            exact absurd digit (by decide)
          have few : behind.count '.' ≤ pointsLeft pointSeen := by
            simpa [List.count_cons, noPoint] using points
          simpa using recurse onward figures.2 few
        · rename_i noDigit
          have point : char = '.' := figures.1.resolve_left noDigit
          subst point
          cases pointSeen with
          | true => simp [pointsLeft] at points
          | false =>
              have none : behind.count '.' ≤ pointsLeft true := by simpa [pointsLeft] using points
              simpa using recurse onward figures.2 none

/-- What is split off as a numeral is the longest run that a text begins with. -/
theorem longestRun_splitNumeral (text : List Char) :
    LongestRun (splitNumeral false text).1 text := by
  refine ⟨⟨_, splitNumeral_append false text⟩, ⟨fun char member => ?_, ?_⟩,
    fun other begins isRun => length_le_splitNumeral begins isRun.figures isRun.points⟩
  · have starts := startsNumeral_of_mem (splitNumeral_fst false text) char member
    simpa [startsNumeral] using starts
  · exact count_splitNumeral_le false text

/-- A numeral is split off whole just when it is the longest run at its place. -/
theorem splitNumeral_eq_iff {run rest : List Char} :
    splitNumeral false (run ++ rest) = (run, rest) ↔ LongestRun run (run ++ rest) := by
  have longest := longestRun_splitNumeral (run ++ rest)
  constructor
  · intro split
    rwa [split] at longest
  · intro whole
    have same := longest.unique whole
    have parts := splitNumeral_append false (run ++ rest)
    rw [same, List.append_cancel_left_eq] at parts
    exact Prod.ext same parts

end PanelCalc.Decimal
