import Mathlib
import PanelCalc.Proofs.Json.Grammar

/-!
# Strings of a JSON text

What `stringBody?` and `assemble?` find is what the grammar says about strings: the pieces between
the quotation marks, `stringBody?_of_spells` and `spells_of_stringBody?`, and the characters that
pieces stand for, `assemble?_eq_some_iff`.
-/

namespace PanelCalc.Json

/-! ## Escapes -/

theorem IsHex.lt {char : Char} {value : Nat} (hex : IsHex char value) : value < 16 := by
  obtain found | found := hex
  · exact (List.getElem?_eq_some_iff.mp found).1
  · simpa [hexDigits] using (List.getElem?_eq_some_iff.mp found).1

/-- Hexadecimal digits lie below the letter behind `f`, and their values below sixteen. -/
theorem bounds_of_hexDigit? {char : Char} {value : Nat} (read : hexDigit? char = some value) :
    char.toNat < 103 ∧ value < 16 := by
  have range (least most : Char) : (least ≤ char && char ≤ most) = true ↔
      least.toNat ≤ char.toNat ∧ char.toNat ≤ most.toNat := by
    simp only [Bool.and_eq_true, decide_eq_true_eq]
    rfl
  unfold hexDigit? Decimal.isDigit at read
  simp only [range, Decimal.digitValue, Char.reduceToNat] at read
  split at read
  · cases read
    omega
  split at read
  · cases read
    omega
  split at read
  · cases read
    omega
  · cases read

theorem hexDigit?_eq_some_iff {char : Char} {value : Nat} :
    hexDigit? char = some value ↔ IsHex char value := by
  constructor
  · have all : ∀ number < 103, ∀ value < 16,
        hexDigit? (Char.ofNat number) = some value → IsHex (Char.ofNat number) value := by
      unfold IsHex
      decide +kernel
    intro read
    obtain ⟨small, low⟩ := bounds_of_hexDigit? read
    rw [← Char.ofNat_toNat char] at read ⊢
    exact all _ small value low read
  · intro hex
    have low := hex.lt
    obtain found | found := hex
    · interval_cases value <;> cases found <;> decide
    · interval_cases value <;> cases found <;> decide

theorem escaped?_eq_some_iff {letter char : Char} :
    escaped? letter = some char ↔ (letter, char) ∈ escapes := by
  constructor
  · intro read
    unfold escaped? at read
    split at read <;> cases read <;> decide
  · intro known
    simp only [escapes, List.mem_cons, Prod.mk.injEq, List.not_mem_nil, or_false] at known
    rcases known with ⟨rfl, rfl⟩ | ⟨rfl, rfl⟩ | ⟨rfl, rfl⟩ | ⟨rfl, rfl⟩ | ⟨rfl, rfl⟩ | ⟨rfl, rfl⟩ |
      ⟨rfl, rfl⟩ | ⟨rfl, rfl⟩ <;> rfl

theorem unit?_eq_some_iff {first second third fourth : Char} {value : Nat} :
    unit? first second third fourth = some value ↔
      ∃ a b c d, IsHex first a ∧ IsHex second b ∧ IsHex third c ∧ IsHex fourth d ∧
        value = ((a * 16 + b) * 16 + c) * 16 + d := by
  simp only [unit?, bind, Option.bind_eq_some_iff, hexDigit?_eq_some_iff, pure, Option.some.injEq]
  constructor
  · rintro ⟨a, first, b, second, c, third, d, fourth, rfl⟩
    exact ⟨a, b, c, d, first, second, third, fourth, by omega⟩
  · rintro ⟨a, b, c, d, first, second, third, fourth, rfl⟩
    exact ⟨a, first, b, second, c, third, d, fourth, by omega⟩

/-! ## Pieces -/

/-- The inside of a string, up to the quotation mark behind it, is read as its pieces. -/
theorem stringBody?_of_spells {body : List Char} {pieces : List Piece} (spells : Spells body pieces)
    (rest : List Char) : stringBody? (body ++ '"' :: rest) = some (pieces, rest) := by
  induction spells with
  | nothing => rfl
  | plain shown noQuote noEscape spells recurse =>
      rw [List.cons_append, stringBody?]
      · rw [if_neg (by omega), recurse]
        rfl
      all_goals grind
  | escape known spells recurse =>
      rw [← escaped?_eq_some_iff] at known
      rw [List.cons_append, List.cons_append, stringBody?, known, recurse]
      rintro first second third fourth rest rfl
      cases known
  | unit first second third fourth spells recurse =>
      have value := unit?_eq_some_iff.mpr ⟨_, _, _, _, first, second, third, fourth, rfl⟩
      simp only [List.cons_append]
      rw [stringBody?, value, recurse]

/-- What is read as pieces is the inside of a string that spells them. -/
theorem spells_of_stringBody? {text rest : List Char} {pieces : List Piece}
    (read : stringBody? text = some (pieces, rest)) :
    ∃ body, text = body ++ '"' :: rest ∧ Spells body pieces := by
  fun_induction stringBody? text generalizing pieces with
  | case1 => cases read
  | case2 =>
      cases read
      exact ⟨[], rfl, .nothing⟩
  | case3 first second third fourth others value more after body unit recurse =>
      cases read
      obtain ⟨inside, rfl, spells⟩ := recurse body
      obtain ⟨a, b, c, d, first, second, third, fourth, rfl⟩ := unit?_eq_some_iff.mp unit
      exact ⟨_, rfl, .unit first second third fourth spells⟩
  | case4 => cases read
  | case5 letter others _ char more after body escape recurse =>
      cases read
      obtain ⟨inside, rfl, spells⟩ := recurse body
      exact ⟨_, rfl, .escape (escaped?_eq_some_iff.mp escape) spells⟩
  | case6 => cases read
  | case7 => cases read
  | case8 char others _ _ _ shown recurse =>
      obtain ⟨⟨more, after⟩, body, same⟩ := Option.map_eq_some_iff.mp read
      cases same
      obtain ⟨inside, rfl, spells⟩ := recurse body
      refine ⟨char :: inside, rfl, .plain (by omega) ?_ ?_ spells⟩
      · rename_i noQuote _ _
        exact noQuote
      · rename_i noEscape
        rintro rfl
        cases inside
        · exact noEscape _ _ rfl rfl
        · exact noEscape _ _ rfl rfl

/-- Units have sixteen bits. -/
def Short (pieces : List Piece) : Prop :=
  ∀ value, .unit value ∈ pieces → value < 0x10000

theorem Short.tail {piece : Piece} {rest : List Piece} (short : Short (piece :: rest)) :
    Short rest :=
  fun value member => short value (List.mem_cons_of_mem piece member)

theorem Spells.short {body : List Char} {pieces : List Piece} (spells : Spells body pieces) :
    Short pieces := by
  induction spells with
  | nothing => simp [Short]
  | plain _ _ _ _ recurse => simpa [Short] using recurse
  | escape _ _ recurse => simpa [Short] using recurse
  | unit first second third fourth _ recurse =>
      have := first.lt
      have := second.lt
      have := third.lt
      have := fourth.lt
      intro value member
      obtain same | later := List.mem_cons.mp member
      · cases same
        omega
      · exact recurse value later

/-! ## Surrogate pairs -/

/-- Whether a number is neither half of a surrogate pair. -/
def IsWholeUnit (value : Nat) : Prop :=
  isHighSurrogate value = false ∧ isLowSurrogate value = false

theorem isWholeUnit_toNat (char : Char) : IsWholeUnit char.toNat := by
  have noHalf := char.toNat_not_surrogate
  simp only [Char.minSurrogate, Char.maxSurrogate] at noHalf
  simp only [IsWholeUnit, isHighSurrogate, isLowSurrogate, Bool.and_eq_false_iff,
    decide_eq_false_iff_not]
  omega

/-- A whole unit is a character. -/
theorem IsWholeUnit.toNat_ofNat {value : Nat} (whole : IsWholeUnit value)
    (small : value < 0x10000) : (Char.ofNat value).toNat = value := by
  simp only [IsWholeUnit, isHighSurrogate, isLowSurrogate, Bool.and_eq_false_iff,
    decide_eq_false_iff_not] at whole
  rw [Char.toNat_ofNat, if_pos]
  unfold Nat.isValidChar
  omega

theorem assemble?_unit {value : Nat} (whole : IsWholeUnit value) (rest : List Piece) :
    assemble? (.unit value :: rest) = (assemble? rest).map (Char.ofNat value :: ·) := by
  obtain ⟨notHigh, notLow⟩ := whole
  cases rest with
  | nil => simp [assemble?, notHigh, notLow]
  | cons next later => cases next <;> simp [assemble?, notHigh, notLow]

/-- Pieces are put together to the characters that they stand for. -/
theorem assemble?_of_denotes {pieces : List Piece} {chars : List Char}
    (denotes : Denotes pieces chars) : assemble? pieces = some chars := by
  induction denotes with
  | nothing => rfl
  | char _ recurse => rw [assemble?, recurse]; rfl
  | @unit char _ _ _ recurse =>
      rw [assemble?_unit (isWholeUnit_toNat char), recurse, Char.ofNat_toNat]
      rfl
  | @pair char high low _ _ highSmall lowSmall same _ recurse =>
      have isHigh : isHighSurrogate (0xD800 + high) = true := by
        simp [isHighSurrogate]
        omega
      have isLow : isLowSurrogate (0xDC00 + low) = true := by
        simp [isLowSurrogate]
        omega
      rw [assemble?, if_pos isHigh, if_pos isLow, recurse, Nat.add_sub_cancel_left,
        Nat.add_sub_cancel_left, ← same, Char.ofNat_toNat]
      rfl

/-- What pieces are put together to is what they stand for. -/
theorem denotes_of_assemble? {pieces : List Piece} {chars : List Char} (short : Short pieces)
    (assembled : assemble? pieces = some chars) : Denotes pieces chars := by
  fun_induction assemble? pieces generalizing chars with
  | case1 =>
      cases assembled
      exact .nothing
  | case2 char rest recurse =>
      obtain ⟨behind, held, rfl⟩ := Option.map_eq_some_iff.mp assembled
      exact .char (recurse short.tail held)
  | case3 high low rest isHigh isLow recurse =>
      obtain ⟨behind, held, rfl⟩ := Option.map_eq_some_iff.mp assembled
      simp only [isHighSurrogate, isLowSurrogate, Bool.and_eq_true, decide_eq_true_eq]
        at isHigh isLow
      have code : (Char.ofNat (0x10000 + (high - 0xD800) * 0x400 + (low - 0xDC00))).toNat =
          0x10000 + (high - 0xD800) * 0x400 + (low - 0xDC00) := by
        rw [Char.toNat_ofNat, if_pos]
        unfold Nat.isValidChar
        omega
      have pair := Denotes.pair (by omega) (by omega) code (recurse short.tail.tail held)
      rwa [Nat.add_sub_cancel' isHigh.1, Nat.add_sub_cancel' isLow.1] at pair
  | case4 => cases assembled
  | case5 => cases assembled
  | case6 high low rest notHigh notLow recurse =>
      obtain ⟨behind, held, rfl⟩ := Option.map_eq_some_iff.mp assembled
      have whole : IsWholeUnit high := ⟨by simpa using notHigh, by simpa using notLow⟩
      have unit := @Denotes.unit (Char.ofNat high) _ _ (recurse short.tail held)
      rwa [whole.toNat_ofNat (short high List.mem_cons_self)] at unit
  | case7 => cases assembled
  | case8 value rest _ whole recurse =>
      obtain ⟨behind, held, rfl⟩ := Option.map_eq_some_iff.mp assembled
      have whole : IsWholeUnit value := by simpa [IsWholeUnit] using whole
      have unit := @Denotes.unit (Char.ofNat value) _ _ (recurse short.tail held)
      rwa [whole.toNat_ofNat (short value List.mem_cons_self)] at unit

/-- Pieces are put together to a text exactly if they stand for it. -/
theorem assemble?_eq_some_iff {pieces : List Piece} {chars : List Char} (short : Short pieces) :
    assemble? pieces = some chars ↔ Denotes pieces chars :=
  ⟨denotes_of_assemble? short, assemble?_of_denotes⟩

/-- The text that pieces hold is the one that they are put together to. -/
theorem holds_iff {pieces : List Piece} {text : Option String} (short : Short pieces) :
    (∀ known, text = some known ↔ Denotes pieces known.toList) ↔
      (assemble? pieces).map String.ofList = text := by
  have joined (known : String) :
      (assemble? pieces).map String.ofList = some known ↔ Denotes pieces known.toList := by
    rw [← assemble?_eq_some_iff short, Option.map_eq_some_iff]
    constructor
    · rintro ⟨chars, held, rfl⟩
      rw [held, String.toList_ofList]
    · intro held
      exact ⟨_, held, String.ofList_toList⟩
  rw [Option.ext_iff]
  simp only [joined]
  exact forall_congr' fun known => Iff.comm

end PanelCalc.Json
