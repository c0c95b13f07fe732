import PanelCalc.Proofs.Json.Strings

/-!
# Marks of a JSON text

The marks that `scan` finds are the ones that the grammar writes, `scan_of_isMark` and
`isMark_of_scan`. A number is read as far as it goes, so something that is no part of a number has
to follow it.
-/

namespace PanelCalc.Json

open Decimal (isDigit)

/-! ## Rows of digits -/

/-- Whether a text goes on with a digit. -/
def DigitAhead (text : List Char) : Prop :=
  ∃ char ∈ text.head?, isDigit char = true

theorem digits?_append {row rest : List Char} (digits : IsDigits row) (ends : ¬ DigitAhead rest) :
    digits? (row ++ rest) = some rest := by
  obtain ⟨nonempty, all⟩ := digits
  obtain ⟨first, others, rfl⟩ := List.exists_cons_of_ne_nil nonempty
  have isDigits : ∀ char ∈ others, isDigit char = true := fun char member =>
    all char (List.mem_cons_of_mem first member)
  rw [List.cons_append, digits?, if_pos (all first List.mem_cons_self),
    List.dropWhile_append_of_pos isDigits]
  cases rest with
  | nil => rfl
  | cons char later =>
      have noDigit : isDigit char ≠ true := fun digit => ends ⟨char, rfl, digit⟩
      rw [List.dropWhile_cons_of_neg noDigit]

theorem isDigits_of_digits? {text rest : List Char} (read : digits? text = some rest) :
    ∃ row, text = row ++ rest ∧ IsDigits row := by
  cases text with
  | nil => cases read
  | cons first others =>
      simp only [digits?] at read
      split at read
      · rename_i digit
        cases read
        refine ⟨first :: others.takeWhile isDigit, ?_, by simp, ?_⟩
        · rw [List.cons_append, List.takeWhile_append_dropWhile]
        · intro char member
          obtain rfl | later := List.mem_cons.mp member
          · exact digit
          · exact List.mem_takeWhile_imp later
      · cases read

/-! ## Numbers -/

theorem wholePart?_append {whole rest : List Char} (isWhole : IsWhole whole)
    (ends : ¬ DigitAhead rest) : wholePart? (whole ++ rest) = some rest := by
  cases isWhole with
  | zero => rfl
  | digits digits noZero =>
      obtain ⟨first, others, rfl⟩ := List.exists_cons_of_ne_nil digits.1
      rw [wholePart?]
      · exact digits?_append digits ends
      · rintro later same
        cases same
        exact noZero rfl

theorem isWhole_of_wholePart? {text rest : List Char} (read : wholePart? text = some rest) :
    ∃ whole, text = whole ++ rest ∧ IsWhole whole := by
  unfold wholePart? at read
  split at read
  · cases read
    exact ⟨['0'], rfl, .zero⟩
  · rename_i noZero
    obtain ⟨row, rfl, digits⟩ := isDigits_of_digits? read
    refine ⟨row, rfl, .digits digits ?_⟩
    obtain ⟨first, others, rfl⟩ := List.exists_cons_of_ne_nil digits.1
    rintro same
    cases same
    exact noZero _ rfl

theorem fractionPart?_append {fraction rest : List Char} (isFraction : IsFraction fraction)
    (ends : ¬ DigitAhead rest) (noPoint : rest.head? ≠ some '.') :
    fractionPart? (fraction ++ rest) = some rest := by
  cases isFraction with
  | missing =>
      rw [List.nil_append, fractionPart?]
      rintro later rfl
      exact noPoint rfl
  | digits digits => exact digits?_append digits ends

theorem isFraction_of_fractionPart? {text rest : List Char}
    (read : fractionPart? text = some rest) :
    ∃ fraction, text = fraction ++ rest ∧ IsFraction fraction := by
  unfold fractionPart? at read
  split at read
  · obtain ⟨row, rfl, digits⟩ := isDigits_of_digits? read
    exact ⟨'.' :: row, rfl, .digits digits⟩
  · cases read
    exact ⟨[], rfl, .missing⟩

theorem afterSign_append {sign digits : List Char} (isSign : sign ∈ [[], ['+'], ['-']])
    (isDigits : IsDigits digits) (rest : List Char) :
    afterSign (sign ++ (digits ++ rest)) = digits ++ rest := by
  obtain ⟨first, others, rfl⟩ := List.exists_cons_of_ne_nil isDigits.1
  have digit := isDigits.2 first List.mem_cons_self
  simp only [List.mem_cons, List.not_mem_nil, or_false] at isSign
  obtain rfl | rfl | rfl := isSign
  · rw [List.nil_append, List.cons_append, afterSign]
    · rintro later same
      cases same
      exact absurd digit (by decide)
    · rintro later same
      cases same
      exact absurd digit (by decide)
  · rfl
  · rfl

theorem exists_sign_of_afterSign (text : List Char) :
    ∃ sign ∈ [[], ['+'], ['-']], text = sign ++ afterSign text := by
  unfold afterSign
  split
  · exact ⟨['+'], by simp, rfl⟩
  · exact ⟨['-'], by simp, rfl⟩
  · exact ⟨[], by simp, rfl⟩

theorem exponentPart?_append {exponent rest : List Char} (isExponent : IsExponent exponent)
    (ends : ¬ DigitAhead rest) (noLetter : ∀ letter ∈ rest.head?, letter ∉ ['e', 'E']) :
    exponentPart? (exponent ++ rest) = some rest := by
  cases isExponent with
  | missing =>
      rw [List.nil_append, exponentPart?]
      · rintro later rfl
        exact noLetter 'e' rfl (by decide)
      · rintro later rfl
        exact noLetter 'E' rfl (by decide)
  | @digits letter sign row isLetter isSign digits =>
      simp only [List.mem_cons, List.not_mem_nil, or_false] at isLetter
      rw [List.cons_append, List.append_assoc]
      obtain rfl | rfl := isLetter
      · rw [exponentPart?, afterSign_append isSign digits, digits?_append digits ends]
      · rw [exponentPart?, afterSign_append isSign digits, digits?_append digits ends]

theorem isExponent_of_exponentPart? {text rest : List Char}
    (read : exponentPart? text = some rest) :
    ∃ exponent, text = exponent ++ rest ∧ IsExponent exponent := by
  have signed {letter : Char} {behind : List Char} (isLetter : letter ∈ ['e', 'E'])
      (read : digits? (afterSign behind) = some rest) :
      ∃ exponent, letter :: behind = exponent ++ rest ∧ IsExponent exponent := by
    obtain ⟨sign, isSign, same⟩ := exists_sign_of_afterSign behind
    obtain ⟨row, split, digits⟩ := isDigits_of_digits? read
    refine ⟨letter :: (sign ++ row), ?_, .digits isLetter isSign digits⟩
    rw [List.cons_append, List.append_assoc, ← split, ← same]
  unfold exponentPart? at read
  split at read
  · exact signed (by decide) read
  · exact signed (by decide) read
  · cases read
    exact ⟨[], rfl, .missing⟩

/-- Whether a text goes on with a character that can stand inside of a number. -/
def NumberAhead (text : List Char) : Prop :=
  ∃ char ∈ text.head?, isDigit char = true ∨ char ∈ ['.', 'e', 'E']

theorem IsExponent.ahead {exponent rest : List Char} (isExponent : IsExponent exponent)
    (ends : ¬ NumberAhead rest) :
    ¬ DigitAhead (exponent ++ rest) ∧ (exponent ++ rest).head? ≠ some '.' := by
  cases isExponent with
  | missing =>
      constructor
      · rintro ⟨char, first, digit⟩
        exact ends ⟨char, first, .inl digit⟩
      · intro point
        exact ends ⟨'.', point, .inr (by decide)⟩
  | digits isLetter =>
      simp only [List.mem_cons, List.not_mem_nil, or_false] at isLetter
      obtain rfl | rfl := isLetter <;> simp [DigitAhead] <;> decide

theorem IsFraction.ahead {fraction rest : List Char} (isFraction : IsFraction fraction)
    (ends : ¬ DigitAhead rest) : ¬ DigitAhead (fraction ++ rest) := by
  cases isFraction with
  | missing => exact ends
  | digits =>
      rintro ⟨char, first, digit⟩
      cases first
      exact absurd digit (by decide)

theorem IsWhole.exists_digit {whole : List Char} (isWhole : IsWhole whole) :
    ∃ first others, whole = first :: others ∧ isDigit first = true := by
  cases isWhole with
  | zero => exact ⟨'0', [], rfl, by decide⟩
  | digits digits =>
      obtain ⟨first, others, rfl⟩ := List.exists_cons_of_ne_nil digits.1
      exact ⟨first, others, rfl, digits.2 first List.mem_cons_self⟩

/-- The text behind a number without a sign. -/
def unsigned? (text : List Char) : Option (List Char) :=
  ((wholePart? text).bind fractionPart?).bind exponentPart?

theorem number?_minus (text : List Char) : number? ('-' :: text) = unsigned? text := by
  simp only [number?, unsigned?, bind, Option.bind_assoc]

theorem number?_of_head_ne {text : List Char} (noSign : text.head? ≠ some '-') :
    number? text = unsigned? text := by
  simp only [number?, unsigned?, bind, Option.bind_assoc]
  split
  · exact absurd rfl noSign
  · rfl

theorem unsigned?_append {whole fraction exponent rest : List Char} (isWhole : IsWhole whole)
    (isFraction : IsFraction fraction) (isExponent : IsExponent exponent)
    (ends : ¬ NumberAhead rest) :
    unsigned? (whole ++ (fraction ++ (exponent ++ rest))) = some rest := by
  obtain ⟨exponentNoDigit, exponentNoPoint⟩ := isExponent.ahead ends
  have fractionNoDigit := isFraction.ahead exponentNoDigit
  have noDigit : ¬ DigitAhead rest := fun ⟨char, first, digit⟩ => ends ⟨char, first, .inl digit⟩
  have noLetter : ∀ letter ∈ rest.head?, letter ∉ ['e', 'E'] := fun letter first isLetter =>
    ends ⟨letter, first, .inr (List.mem_cons_of_mem '.' isLetter)⟩
  rw [unsigned?, wholePart?_append isWhole fractionNoDigit, Option.bind_some,
    fractionPart?_append isFraction exponentNoDigit exponentNoPoint, Option.bind_some,
    exponentPart?_append isExponent noDigit noLetter]

/-- A number is read as far as it goes. -/
theorem number?_append {number rest : List Char} (isNumber : IsNumber number)
    (ends : ¬ NumberAhead rest) : number? (number ++ rest) = some rest := by
  obtain ⟨isSign, isWhole, isFraction, isExponent⟩ := isNumber
  have unsigned := unsigned?_append isWhole isFraction isExponent ends
  simp only [List.mem_cons, List.not_mem_nil, or_false] at isSign
  simp only [List.append_assoc]
  obtain rfl | rfl := isSign
  · obtain ⟨first, others, rfl, digit⟩ := isWhole.exists_digit
    rw [List.nil_append, number?_of_head_ne, unsigned]
    intro sign
    cases sign
    exact absurd digit (by decide)
  · rw [List.cons_append, List.nil_append, number?_minus, unsigned]

/-- What is read as a number is one. -/
theorem isNumber_of_number? {text rest : List Char} (read : number? text = some rest) :
    ∃ number, text = number ++ rest ∧ IsNumber number := by
  have signed : ∃ sign ∈ [[], ['-']], ∃ unsigned,
      text = sign ++ unsigned ∧ unsigned? unsigned = some rest := by
    by_cases sign : text.head? = some '-'
    · obtain ⟨unsigned, rfl⟩ := List.head?_eq_some_iff.mp sign
      exact ⟨['-'], by simp, unsigned, rfl, (number?_minus unsigned).symm.trans read⟩
    · exact ⟨[], by simp, text, rfl, (number?_of_head_ne sign).symm.trans read⟩
  obtain ⟨sign, isSign, unsigned, rfl, parts⟩ := signed
  simp only [unsigned?, Option.bind_eq_some_iff] at parts
  obtain ⟨behindFraction, ⟨behindWhole, wholeRead, fractionRead⟩, exponentRead⟩ := parts
  obtain ⟨whole, rfl, isWhole⟩ := isWhole_of_wholePart? wholeRead
  obtain ⟨fraction, rfl, isFraction⟩ := isFraction_of_fractionPart? fractionRead
  obtain ⟨exponent, rfl, isExponent⟩ := isExponent_of_exponentPart? exponentRead
  exact ⟨_, by simp only [List.append_assoc], .parts isSign isWhole isFraction isExponent⟩

/-! ## Marks -/

/-- The texts that a mark is written as. -/
inductive IsMark : Mark → List Char → Prop
  | openArray : IsMark .openArray ['[']
  | closeArray : IsMark .closeArray [']']
  | openObject : IsMark .openObject ['\x7b']
  | closeObject : IsMark .closeObject ['\x7d']
  | comma : IsMark .comma [',']
  | colon : IsMark .colon [':']
  | null : IsMark .null ['n', 'u', 'l', 'l']
  | yes : IsMark (.bool true) ['t', 'r', 'u', 'e']
  | no : IsMark (.bool false) ['f', 'a', 'l', 's', 'e']
  | number {text : List Char} : IsNumber text → IsMark .number text
  | string {text : List Char} {held : Option String} :
      IsString text held → IsMark (.string held) text

theorem IsNumber.head {number : List Char} (isNumber : IsNumber number) :
    ∃ first others, number = first :: others ∧ (first = '-' ∨ isDigit first = true) := by
  obtain ⟨isSign, isWhole, isFraction, isExponent⟩ := isNumber
  obtain ⟨first, others, rfl, digit⟩ := isWhole.exists_digit
  simp only [List.mem_cons, List.not_mem_nil, or_false] at isSign
  obtain rfl | rfl := isSign
  · exact ⟨first, _, rfl, .inr digit⟩
  · exact ⟨'-', _, rfl, .inl rfl⟩

/-- A mark at the start of a text is read, unless it is a number that goes on behind its end. -/
theorem mark?_append {mark : Mark} {text rest : List Char} (isMark : IsMark mark text)
    (ends : mark = .number → ¬ NumberAhead rest) : mark? (text ++ rest) = some (mark, rest) := by
  cases isMark with
  | number isNumber =>
      have number := number?_append isNumber (ends rfl)
      obtain ⟨first, others, rfl, start⟩ := isNumber.head
      rw [List.cons_append] at number ⊢
      rw [mark?, number]
      · rfl
      all_goals
        intro later same
        obtain rfl := List.head_eq_of_cons_eq same
        exact absurd start (by decide)
  | string isString =>
      obtain ⟨spells, holds⟩ := isString
      rw [List.cons_append, List.append_assoc, List.singleton_append, mark?,
        stringBody?_of_spells spells, ← (holds_iff spells.short).mp holds]
      rfl
  | _ => rfl

/-- What is read as a mark is one. -/
theorem isMark_of_mark? {mark : Mark} {text rest : List Char}
    (read : mark? text = some (mark, rest)) :
    ∃ here, text = here ++ rest ∧ IsMark mark here := by
  unfold mark? at read
  split at read
  case h_10 =>
    obtain ⟨⟨pieces, behind⟩, body, same⟩ := Option.map_eq_some_iff.mp read
    cases same
    obtain ⟨inside, rfl, spells⟩ := spells_of_stringBody? body
    exact ⟨_, by simp, .string (.quoted spells ((holds_iff spells.short).mpr rfl))⟩
  case h_11 =>
    obtain ⟨behind, number, same⟩ := Option.map_eq_some_iff.mp read
    cases same
    obtain ⟨here, rfl, isNumber⟩ := isNumber_of_number? number
    exact ⟨here, rfl, .number isNumber⟩
  all_goals
    cases read
    exact ⟨_, rfl, by constructor⟩

/-! ## Scanning -/

theorem dropWhile_blank {blank : List Char} (isBlank : IsBlank blank) (text : List Char) :
    (blank ++ text).dropWhile isGap = text.dropWhile isGap := by
  refine List.dropWhile_append_of_pos fun char member => ?_
  have known := isBlank char member
  simp only [List.mem_cons, List.not_mem_nil, or_false] at known
  obtain rfl | rfl | rfl | rfl := known <;> decide

theorem isBlank_takeWhile (text : List Char) : IsBlank (text.takeWhile isGap) := by
  intro char member
  simpa [isGap, or_assoc] using List.mem_takeWhile_imp member

/-- No mark begins with white space. -/
theorem mark?_of_isGap {char : Char} (gap : isGap char = true) (text : List Char) :
    mark? (char :: text) = none := by
  simp only [isGap, Bool.or_eq_true, decide_eq_true_eq, or_assoc] at gap
  obtain rfl | rfl | rfl | rfl := gap <;> rfl

/-- White space in front of a mark is passed over. -/
theorem scan_blank {blank : List Char} (isBlank : IsBlank blank) (text : List Char) :
    scan (blank ++ text) = scan text := by
  simp only [scan, dropWhile_blank isBlank]

/-- The first mark of a text is found, unless it is a number that goes on behind its end. -/
theorem scan_of_isMark {mark : Mark} {text rest : List Char} (isMark : IsMark mark text)
    (ends : mark = .number → ¬ NumberAhead rest) : scan (text ++ rest) = .found mark rest := by
  have read := mark?_append isMark ends
  have solid : (text ++ rest).dropWhile isGap = text ++ rest := by
    cases here : text ++ rest with
    | nil => rfl
    | cons first others =>
        rw [here] at read
        refine List.dropWhile_cons_of_neg fun gap => ?_
        rw [mark?_of_isGap gap others] at read
        cases read
  rw [scan, solid]
  split
  · rename_i empty
    rw [empty] at read
    cases read
  · rw [read]

/-- A text in which nothing is found is blank. -/
theorem isBlank_of_scan {text : List Char} (finished : scan text = .finished) : IsBlank text := by
  unfold scan at finished
  split at finished
  · rename_i empty
    have parts := List.takeWhile_append_dropWhile (p := isGap) (l := text)
    rw [empty, List.append_nil] at parts
    rw [← parts]
    exact isBlank_takeWhile text
  · split at finished <;> cases finished

/-- What is found in a text is its first mark behind white space. -/
theorem isMark_of_scan {mark : Mark} {text rest : List Char}
    (found : scan text = .found mark rest) :
    ∃ blank here, text = blank ++ (here ++ rest) ∧ IsBlank blank ∧ IsMark mark here := by
  unfold scan at found
  split at found
  · cases found
  · split at found
    · rename_i read
      cases found
      obtain ⟨here, same, isMark⟩ := isMark_of_mark? read
      refine ⟨text.takeWhile isGap, here, ?_, isBlank_takeWhile text, isMark⟩
      rw [← same, List.takeWhile_append_dropWhile]
    · cases found

end PanelCalc.Json
