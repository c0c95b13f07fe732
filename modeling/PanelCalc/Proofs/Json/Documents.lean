import PanelCalc.Json.Reader
import PanelCalc.Proofs.Json.Marks

/-!
# Documents of a JSON text

A text is read as a document exactly if it is one of the texts that the grammar has for the
document: `read?_eq_some_iff`. One direction follows the grammar, in which each part takes the
reader from what was due in front of it to what is due behind it. The other one follows the reader
and keeps track of the text that it has taken.
-/

namespace PanelCalc.Json

open Decimal (isDigit)

namespace Reader

/-! ## Runs -/

/-- What a run does is decided by the first mark of the text. -/
theorem run_eq (reader : Reader) (text : List Char) :
    reader.run text =
      match scan text with
      | .finished => reader.result
      | .malformed => none
      | .found mark rest => (reader.take mark).bind (·.run rest) := by
  rw [run]
  split
  · rename_i finished
    rw [finished]
  · rename_i malformed
    rw [malformed]
  · rename_i mark rest found
    simp only [found]
    cases reader.take mark <;> rfl

/-- White space does not count. -/
theorem run_blank {reader : Reader} {blank : List Char} (isBlank : IsBlank blank)
    (text : List Char) : reader.run (blank ++ text) = reader.run text := by
  rw [run_eq, scan_blank isBlank, ← run_eq]

/-- A run takes the mark that a text starts with. -/
theorem run_mark {reader next : Reader} {mark : Mark} {text rest : List Char}
    (isMark : IsMark mark text) (taken : reader.take mark = some next)
    (ends : mark = .number → ¬ NumberAhead rest) : reader.run (text ++ rest) = next.run rest := by
  rw [run_eq, scan_of_isMark isMark ends]
  simp only [taken, Option.bind_some]

end Reader

/-! ## From the grammar to the reader -/

/-- Where a part takes a reader: from what is due in front of it to what is due behind it. Between
brackets, the end of what they hold is taken as well. -/
def Part.IsTaken : Part → List Char → Prop
  | .value document, text | .element document, text =>
      ∀ opened atStart rest, ¬ NumberAhead rest →
        Reader.run ⟨opened, .value atStart⟩ (text ++ rest) =
          Reader.run ⟨opened, .separator document⟩ rest
  | .items documents, text =>
      ∀ below done atStart rest, (documents = [] → atStart = true) →
        Reader.run ⟨.array done :: below, .value atStart⟩ (text ++ ']' :: rest) =
          Reader.run ⟨below, .separator (.array (done.reverse ++ documents))⟩ rest
  | .member (key, document), text =>
      ∀ opened done atStart rest, ¬ NumberAhead rest →
        Reader.run ⟨opened, .key done atStart⟩ (text ++ rest) =
          Reader.run ⟨.object done key :: opened, .separator document⟩ rest
  | .members held, text =>
      ∀ opened done atStart rest, (held = [] → atStart = true) →
        Reader.run ⟨opened, .key done atStart⟩ (text ++ '\x7d' :: rest) =
          Reader.run ⟨opened, .separator (.object (done.reverse ++ held))⟩ rest

theorem not_numberAhead_cons {char : Char} (text : List Char)
    (foreign : isDigit char = false ∧ char ∉ ['.', 'e', 'E']) : ¬ NumberAhead (char :: text) := by
  rintro ⟨first, same, digit | known⟩
  · cases same
    rw [foreign.1] at digit
    cases digit
  · cases same
    exact foreign.2 known

theorem not_numberAhead_blank {blank rest : List Char} (isBlank : IsBlank blank)
    (ends : ¬ NumberAhead rest) : ¬ NumberAhead (blank ++ rest) := by
  cases blank with
  | nil => exact ends
  | cons char others =>
      have gap := isBlank char List.mem_cons_self
      refine not_numberAhead_cons _ ?_
      simp only [List.mem_cons, List.not_mem_nil, or_false] at gap
      obtain rfl | rfl | rfl | rfl := gap <;> decide

open Reader in
/-- Each part of a text is taken. -/
theorem Writes.isTaken {part : Part} {text : List Char} (writes : Writes part text) :
    part.IsTaken text := by
  -- What is open outside of a part is arbitrary, so that a part may stand inside of any brackets.
  induction writes with
  | null => exact fun _ _ _ _ => run_mark .null rfl (by simp)
  | yes => exact fun _ _ _ _ => run_mark .yes rfl (by simp)
  | no => exact fun _ _ _ _ => run_mark .no rfl (by simp)
  | number isNumber => exact fun _ _ _ ends => run_mark (.number isNumber) rfl fun _ => ends
  | string isString => exact fun _ _ _ _ => run_mark (.string isString) rfl (by simp)
  | array _ recurse =>
      intro opened atStart rest _
      rw [List.cons_append, List.append_assoc]
      exact (run_mark .openArray rfl (by simp)).trans (recurse opened [] true rest fun _ => rfl)
  | object _ recurse =>
      intro opened atStart rest _
      rw [List.cons_append, List.append_assoc]
      exact (run_mark .openObject rfl (by simp)).trans (recurse opened [] true rest fun _ => rfl)
  | element before _ after recurse =>
      intro opened atStart rest ends
      rw [List.append_assoc, List.append_assoc, run_blank before,
        recurse opened atStart _ (not_numberAhead_blank after ends), run_blank after]
  | noItem isBlank =>
      intro below done atStart rest start
      cases start rfl
      rw [run_blank isBlank, List.append_nil]
      exact run_mark .closeArray rfl (by simp)
  | oneItem _ recurse =>
      intro below done atStart rest _
      rw [recurse _ atStart _ (not_numberAhead_cons rest (by decide))]
      refine (run_mark .closeArray rfl (by simp)).trans ?_
      rw [List.reverse_cons]
  | moreItems _ _ first others =>
      intro below done atStart rest _
      rw [List.append_assoc, List.cons_append,
        first _ atStart _ (not_numberAhead_cons _ (by decide))]
      refine (run_mark .comma rfl (by simp)).trans ((others below _ false rest (by simp)).trans ?_)
      rw [List.reverse_cons, List.append_assoc, List.singleton_append]
  | member before isString after _ recurse =>
      intro opened done atStart rest ends
      simp only [List.append_assoc, List.cons_append]
      rw [run_blank before]
      refine (run_mark (.string isString) rfl (by simp)).trans ?_
      rw [run_blank after]
      exact (run_mark .colon rfl (by simp)).trans (recurse _ false rest ends)
  | noMember isBlank =>
      intro opened done atStart rest start
      cases start rfl
      rw [run_blank isBlank, List.append_nil]
      exact run_mark .closeObject rfl (by simp)
  | oneMember _ recurse =>
      intro opened done atStart rest _
      rw [recurse opened done atStart _ (not_numberAhead_cons rest (by decide))]
      refine (run_mark .closeObject rfl (by simp)).trans ?_
      rw [List.reverse_cons]
  | moreMembers _ _ first others =>
      intro opened done atStart rest _
      rw [List.append_assoc, List.cons_append,
        first opened done atStart _ (not_numberAhead_cons _ (by decide))]
      refine (run_mark .comma rfl (by simp)).trans ((others opened _ false rest (by simp)).trans ?_)
      rw [List.reverse_cons, List.append_assoc, List.singleton_append]

/-- Every text of a document is read as the document. -/
theorem read?_of_written {document : Document} {text : String} (written : Written document text) :
    read? text = some document := by
  have taken := written.isTaken [] false [] (by simp [NumberAhead])
  rw [List.append_nil] at taken
  rw [read?, taken, Reader.run_eq]
  rfl

/-! ## From the reader to the grammar -/

/-- Parts with a comma behind each of them, the latest first. -/
inductive Passed {α : Type} (part : α → Part) : List α → List Char → Prop
  | nothing : Passed part [] []
  | more {done : List α} {next : α} {before text : List Char} :
      Passed part done before → Writes (part next) text →
        Passed part (next :: done) (before ++ (text ++ [',']))

/-- The text in front of a value, by what is open there. -/
inductive Leads : List Open → List Char → Prop
  | nothing : Leads [] []
  | array {opened : List Open} {items : List Document} {before blank listed : List Char} :
      Leads opened before → IsBlank blank → Passed .element items listed →
        Leads (.array items :: opened) (before ++ (blank ++ '[' :: listed))
  | object {opened : List Open} {members : List (Option String × Document)} {key : Option String}
      {before blank listed front name behind : List Char} :
      Leads opened before → IsBlank blank → Passed .member members listed →
      IsBlank front → IsString name key → IsBlank behind →
        Leads (.object members key :: opened)
          (before ++ (blank ++ '\x7b' :: (listed ++ (front ++ (name ++ (behind ++ [':']))))))

/-- The text that a reader has taken. -/
inductive Reached : Reader → List Char → Prop
  | value {opened : List Open} {atStart : Bool} {text : List Char} :
      Leads opened text → (atStart = true → ∃ below, opened = .array [] :: below) →
        Reached ⟨opened, .value atStart⟩ text
  | key {opened : List Open} {members : List (Option String × Document)} {atStart : Bool}
      {before blank listed : List Char} :
      Leads opened before → IsBlank blank → Passed .member members listed →
      (atStart = true → members = []) →
        Reached ⟨opened, .key members atStart⟩ (before ++ (blank ++ '\x7b' :: listed))
  | colon {opened : List Open} {members : List (Option String × Document)} {key : Option String}
      {before blank listed front name : List Char} :
      Leads opened before → IsBlank blank → Passed .member members listed →
      IsBlank front → IsString name key →
        Reached ⟨opened, .colon members key⟩
          (before ++ (blank ++ '\x7b' :: (listed ++ (front ++ name))))
  | separator {opened : List Open} {document : Document} {before blank text : List Char} :
      Leads opened before → IsBlank blank → Writes (.value document) text →
        Reached ⟨opened, .separator document⟩ (before ++ (blank ++ text))

/-- The items of an array are the ones that have been passed and the ones behind them. -/
theorem Passed.items {done documents : List Document} {listed rest : List Char}
    (passed : Passed .element done listed) (later : Writes (.items documents) rest)
    (someLeft : documents ≠ []) : Writes (.items (done.reverse ++ documents)) (listed ++ rest) := by
  induction passed generalizing documents rest with
  | nothing => exact later
  | more _ item recurse =>
      obtain ⟨next, others, rfl⟩ := List.exists_cons_of_ne_nil someLeft
      have longer := recurse (.moreItems item later) (by simp)
      simpa using longer

/-- The members of an object are the ones that have been passed and the ones behind them. -/
theorem Passed.members {done members : List (Option String × Document)} {listed rest : List Char}
    (passed : Passed .member done listed) (later : Writes (.members members) rest)
    (someLeft : members ≠ []) : Writes (.members (done.reverse ++ members)) (listed ++ rest) := by
  induction passed generalizing members rest with
  | nothing => exact later
  | more _ member recurse =>
      obtain ⟨next, others, rfl⟩ := List.exists_cons_of_ne_nil someLeft
      have longer := recurse (.moreMembers member later) (by simp)
      simpa using longer

theorem Reached.of_eq {reader : Reader} {text other : List Char} (reached : Reached reader text)
    (same : text = other) : Reached reader other :=
  same ▸ reached

section

variable {opened : List Open} {next : Reader} {mark : Mark} {text before blank here : List Char}

theorem Reached.takeValue {atStart : Bool} (leads : Leads opened text)
    (start : atStart = true → ∃ below, opened = .array [] :: below) (isBlank : IsBlank blank)
    (isMark : IsMark mark here) (taken : Reader.takeValue opened atStart mark = some next) :
    Reached next (text ++ (blank ++ here)) := by
  cases isMark with
  | null => cases taken; exact .separator leads isBlank .null
  | yes => cases taken; exact .separator leads isBlank .yes
  | no => cases taken; exact .separator leads isBlank .no
  | number isNumber => cases taken; exact .separator leads isBlank (.number isNumber)
  | string isString => cases taken; exact .separator leads isBlank (.string isString)
  | openArray => cases taken; exact .value (.array leads isBlank .nothing) fun _ => ⟨opened, rfl⟩
  | openObject => cases taken; exact .key leads isBlank .nothing fun _ => rfl
  | closeArray =>
      cases atStart with
      | false => cases taken
      | true =>
          obtain ⟨below, rfl⟩ := start rfl
          cases taken
          obtain _ | ⟨outside, front, passed⟩ := leads
          cases passed
          exact (Reached.separator outside front (.array (.noItem isBlank))).of_eq (by simp)
  | closeObject | comma | colon => cases taken

theorem Reached.takeKey {members : List (Option String × Document)} {atStart : Bool}
    {listed gap : List Char} (leads : Leads opened before) (front : IsBlank gap)
    (passed : Passed .member members listed) (start : atStart = true → members = [])
    (isBlank : IsBlank blank) (isMark : IsMark mark here)
    (taken : Reader.takeKey opened members atStart mark = some next) :
    Reached next (before ++ (gap ++ '\x7b' :: listed) ++ (blank ++ here)) := by
  cases isMark with
  | string isString =>
      cases taken
      exact (Reached.colon leads front passed isBlank isString).of_eq (by simp)
  | closeObject =>
      cases atStart with
      | false => cases taken
      | true =>
          obtain rfl := start rfl
          cases taken
          cases passed
          exact (Reached.separator leads front (.object (.noMember isBlank))).of_eq (by simp)
  | _ => cases taken

theorem Reached.takeSeparator {document : Document} {value gap : List Char}
    (leads : Leads opened before) (front : IsBlank gap) (written : Writes (.value document) value)
    (isBlank : IsBlank blank) (isMark : IsMark mark here)
    (taken : Reader.takeSeparator document opened mark = some next) :
    Reached next (before ++ (gap ++ value) ++ (blank ++ here)) := by
  have element := Writes.element front written isBlank
  cases leads with
  | nothing => cases isMark <;> cases taken
  | array outside blank passed =>
      cases isMark with
      | comma =>
          cases taken
          exact (Reached.value (.array outside blank (.more passed element)) (by simp)).of_eq
            (by simp)
      | closeArray =>
          cases taken
          have items := passed.items (.oneItem element) (by simp)
          rw [← List.reverse_cons] at items
          exact (Reached.separator outside blank (.array items)).of_eq (by simp)
      | _ => cases taken
  | object outside blank passed front isString behind =>
      have member := Writes.member front isString behind element
      cases isMark with
      | comma =>
          cases taken
          exact (Reached.key outside blank (.more passed member) (by simp)).of_eq (by simp)
      | closeObject =>
          cases taken
          have members := passed.members (.oneMember member) (by simp)
          rw [← List.reverse_cons] at members
          exact (Reached.separator outside blank (.object members)).of_eq (by simp)
      | _ => cases taken

/-- A reader that takes a mark has taken its text as well. -/
theorem Reached.take {reader : Reader} (reached : Reached reader text) (isBlank : IsBlank blank)
    (isMark : IsMark mark here) (taken : reader.take mark = some next) :
    Reached next (text ++ (blank ++ here)) := by
  cases reached with
  | value leads start => exact takeValue leads start isBlank isMark taken
  | key leads front passed start => exact takeKey leads front passed start isBlank isMark taken
  | colon leads front passed gap isString =>
      simp only [Reader.take] at taken
      split at taken
      · rename_i isColon
        subst isColon
        cases isMark
        cases taken
        exact (Reached.value (.object leads front passed gap isString isBlank) (by simp)).of_eq
          (by simp)
      · cases taken
  | separator leads front written =>
      exact takeSeparator leads front written isBlank isMark taken

end

/-- A document that is read to the end of a text is written by what has been taken. -/
theorem Reached.result {reader : Reader} {text blank : List Char} {document : Document}
    (reached : Reached reader text) (isBlank : IsBlank blank)
    (done : reader.result = some document) : Writes (.element document) (text ++ blank) := by
  cases reached with
  | separator leads front written =>
      cases leads with
      | nothing =>
          cases done
          simpa using Writes.element front written isBlank
      | array | object => cases done
  | value | key | colon => cases done

/-- What is read from the rest of a text is written by the whole text. -/
theorem Reached.run {reader : Reader} {text rest : List Char} {document : Document}
    (reached : Reached reader text) (read : reader.run rest = some document) :
    Writes (.element document) (text ++ rest) := by
  -- Each mark moves from the rest to what has been taken.
  fun_induction Reader.run reader rest generalizing text with
  | case1 reader rest finished => exact reached.result (isBlank_of_scan finished) read
  | case2 => cases read
  | case3 => cases read
  | case4 reader rest mark behind found next taken recurse =>
      obtain ⟨blank, here, rfl, isBlank, isMark⟩ := isMark_of_scan found
      have whole := recurse (reached.take isBlank isMark taken) read
      simpa using whole

/-- A text is read as a document exactly if it is a text of the document. -/
theorem read?_eq_some_iff {text : String} {document : Document} :
    read? text = some document ↔ Written document text := by
  constructor
  · intro read
    exact Reached.run (.value .nothing (by simp)) read
  · exact read?_of_written

end PanelCalc.Json
