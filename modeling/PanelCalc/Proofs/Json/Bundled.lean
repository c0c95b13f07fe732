import PanelCalc.Json.Bundled
import PanelCalc.Proofs.Json.Documents
import PanelCalc.Proofs.Json.Packages

/-!
# The bundled JSON package

The bundled package does what is asked of a package: `bundled_conforms`. Its reader keeps to the
grammar by `read?_of_written`; here its writer is held against the same grammar, and the reading of
records against the steps of `Record.Fills` and `Lists`.
-/

namespace PanelCalc.Json

/-! ## Writing strings -/

/-- The piece that a character is written as. -/
def pieceOf (char : Char) : Piece :=
  if char.toNat < 0x20 then .unit char.toNat else .char char

theorem isHex_hexDigit {value : Nat} (small : value < 16) : IsHex (hexDigit value) value := by
  have all : ∀ value < 16, hexDigits[value]? = some (hexDigit value) := by decide
  exact .inl (all value small)

theorem spells_writeChar (char : Char) {text : List Char} {pieces : List Piece}
    (spells : Spells text pieces) : Spells (writeChar char ++ text) (pieceOf char :: pieces) := by
  unfold writeChar
  split
  · rename_i marked
    have escaped : (char, char) ∈ escapes ∧ ¬ char.toNat < 0x20 := by
      simp only [Bool.or_eq_true, decide_eq_true_eq] at marked
      obtain rfl | rfl := marked <;> decide
    rw [pieceOf, if_neg escaped.2]
    exact .escape escaped.1 spells
  · rename_i unmarked
    simp only [Bool.or_eq_true, decide_eq_true_eq, not_or] at unmarked
    split
    · rename_i control
      have zero : IsHex '0' 0 := isHex_hexDigit (by decide)
      have high : IsHex _ (char.toNat / 16) := isHex_hexDigit (by omega)
      have low : IsHex _ (char.toNat % 16) := isHex_hexDigit (by omega)
      have unit := Spells.unit zero zero high low spells
      have whole : ((0 * 16 + 0) * 16 + char.toNat / 16) * 16 + char.toNat % 16 = char.toNat := by
        omega
      rw [whole] at unit
      rw [pieceOf, if_pos control]
      exact unit
    · rename_i visible
      rw [pieceOf, if_neg visible]
      exact .plain (Nat.le_of_not_lt visible) unmarked.1 unmarked.2 spells

theorem spells_flatMap (text : List Char) :
    Spells (text.flatMap writeChar) (text.map pieceOf) := by
  induction text with
  | nil => exact .nothing
  | cons char rest recurse => exact spells_writeChar char recurse

theorem denotes_pieceOf (text : List Char) : Denotes (text.map pieceOf) text := by
  induction text with
  | nil => exact .nothing
  | cons char rest recurse =>
      rw [List.map_cons, pieceOf]
      split
      · exact .unit recurse
      · exact .char recurse

/-- A string is written as a text that holds it. -/
theorem isString_writeString (text : String) : IsString (writeString text) (some text) := by
  refine .quoted (spells_flatMap text.toList) fun known => ?_
  constructor
  · rintro ⟨⟩
    exact denotes_pieceOf text.toList
  · intro denotes
    have same := (assemble?_of_denotes (denotes_pieceOf text.toList)).symm.trans
      (assemble?_of_denotes denotes)
    rw [Option.some.injEq, String.toList_inj] at same
    rw [same]

/-! ## Writing documents -/

/-- A value without white space around it. -/
theorem Writes.bare {document : Document} {text : List Char}
    (writes : Writes (.value document) text) : Writes (.element document) text := by
  have blank : IsBlank [] := fun _ member => absurd member List.not_mem_nil
  simpa using Writes.element blank writes blank

/-- A member without white space in it. -/
theorem Writes.bareMember {key : String} {document : Document} {text : List Char}
    (writes : Writes (.value document) text) :
    Writes (.member (some key, document)) (writeString key ++ ':' :: text) := by
  have blank : IsBlank [] := fun _ member => absurd member List.not_mem_nil
  simpa using Writes.member blank (isString_writeString key) blank writes.bare

theorem writes_writeDocument (document : Document) :
    document.Plain → Writes (.value document) (writeDocument document) := by
  refine (writeDocument.mutual_induct
    (fun document => document.Plain → Writes (.value document) (writeDocument document))
    (fun members => (∀ member ∈ members, member.1 ≠ none) →
      (∀ member ∈ members, member.2.Plain) → Writes (.members members) (writeMembers members))
    (fun items => (∀ item ∈ items, item.Plain) → Writes (.items items) (writeItems items))
    ?null ?yes ?no ?number ?string ?array ?object ?noItem ?oneItem ?moreItems ?noMember ?oneMember
    ?moreMembers).1 document
  case null => exact fun _ => .null
  case yes => exact fun _ => .yes
  case no => exact fun _ => .no
  case number =>
    have zero := IsNumber.parts (List.mem_cons_self) .zero .missing .missing
    exact fun _ => .number zero
  case string =>
    rintro _ ⟨⟩
    exact .string (isString_writeString _)
  case array =>
    rintro _ recurse (_ | _ | _ | _ | plain)
    exact .array (recurse plain)
  case object =>
    rintro _ recurse (_ | _ | _ | _ | _ | ⟨texts, plain⟩)
    exact .object (recurse texts plain)
  case noItem => exact fun _ => .noItem fun _ member => absurd member List.not_mem_nil
  case oneItem =>
    intro item recurse plain
    exact .oneItem (recurse (plain item List.mem_cons_self)).bare
  case moreItems =>
    intro item next others first rest plain
    exact .moreItems (first (plain item List.mem_cons_self)).bare
      (rest fun other member => plain other (List.mem_cons_of_mem _ member))
  case noMember => exact fun _ _ => .noMember fun _ member => absurd member List.not_mem_nil
  case oneMember =>
    intro key? document recurse texts plain
    obtain ⟨key, rfl⟩ := Option.ne_none_iff_exists'.mp (texts _ List.mem_cons_self)
    exact .oneMember (recurse (plain _ List.mem_cons_self)).bareMember
  case moreMembers =>
    intro key? document next others first rest texts plain
    obtain ⟨key, rfl⟩ := Option.ne_none_iff_exists'.mp (texts _ List.mem_cons_self)
    have member := @Writes.bareMember key document _ (first (plain _ List.mem_cons_self))
    have behind := rest (fun other member => texts other (List.mem_cons_of_mem _ member))
      fun other member => plain other (List.mem_cons_of_mem _ member)
    simpa [writeMembers] using Writes.moreMembers member behind

/-! ## Reading records -/

/-- What is found by its name, where no two have the same one. -/
theorem find?_name_eq_some_iff {Value : Type _} {values : List Value} {name : Value → String}
    (apart : ∀ first ∈ values, ∀ second ∈ values, name first = name second → first = second)
    {text : String} {value : Value} :
    (values.find? fun value => name value = text) = some value ↔
      value ∈ values ∧ name value = text := by
  constructor
  · intro found
    have same := List.find?_some found
    exact ⟨List.mem_of_find?_eq_some found, of_decide_eq_true same⟩
  · rintro ⟨member, rfl⟩
    cases found : values.find? fun other => name other = name value with
    | none => exact absurd (decide_eq_true rfl) (List.find?_eq_none.mp found value member)
    | some other =>
        have same := List.find?_some found
        rw [apart other (List.mem_of_find?_eq_some found) value member (of_decide_eq_true same)]

theorem Choice.find?_eq_some_iff {Value : Type} {choice : Choice Value} {text : String}
    {value : Value} :
    (choice.values.find? fun value => choice.name value = text) = some value ↔
      text = choice.name value := by
  rw [find?_name_eq_some_iff fun first _ second _ => choice.apart first second,
    and_iff_right (choice.listed value), eq_comm]

theorem Form.read?_eq_some_iff {Value : Type} {form : Form Value} {document : Document}
    {value : Value} : form.read? document = some value ↔ form.Reads document value := by
  constructor
  · intro read
    cases form with
    | flag =>
        cases document <;> cases read
        exact .flag
    | choice names =>
        simp only [Form.read?, Choice.read?] at read
        split at read
        · rw [Choice.find?_eq_some_iff.mp read]
          exact .named
        · rw [Choice.find?_eq_some_iff.mp read]
          exact .keyed
        · cases read
  · intro reads
    cases reads with
    | flag => rfl
    | named | keyed => exact Choice.find?_eq_some_iff.mpr rfl

namespace Record

variable {Data : Type} {record : Record Data}

/-- The field that is found for a key. -/
theorem find?_key_eq_some_iff {key : String} {field : Field Data} :
    (record.fields.find? fun field => field.key = key) = some field ↔
      field ∈ record.fields ∧ field.key = key :=
  find?_name_eq_some_iff fun _ member _ otherMember same => eq_of_key_eq member otherMember same

theorem find?_key_eq_none_iff {key : String} :
    (record.fields.find? fun field => field.key = key) = none ↔ key ∉ record.keys := by
  simp [keys, List.find?_eq_none]

theorem fill?_eq_some_iff {seen : List String} {current final : Data}
    {members : List (Option String × Document)} :
    record.fill? seen current members = some final ↔ record.Fills seen current members final := by
  constructor
  · intro filled
    fun_induction fill? record seen current members with
    | case1 => cases filled; exact .done
    | case2 => cases filled
    | case3 seen current key document others unknown recurse =>
        exact .skipped (find?_key_eq_none_iff.mp unknown) (recurse filled)
    | case4 => cases filled
    | case5 => cases filled
    | case6 seen current key document others field found fresh value read recurse =>
        obtain ⟨member, rfl⟩ := find?_key_eq_some_iff.mp found
        exact .field member fresh (Form.read?_eq_some_iff.mp read) (recurse filled)
  · intro fills
    induction fills with
    | done => rfl
    | field member fresh reads _ recurse =>
        rw [fill?, find?_key_eq_some_iff.mpr ⟨member, rfl⟩]
        simp only [fresh, Form.read?_eq_some_iff.mpr reads, if_false]
        exact recurse
    | skipped foreign _ recurse =>
        rw [fill?, find?_key_eq_none_iff.mpr foreign]
        exact recurse

theorem list?_eq_some_iff {fields : List (Field Data)} {current final : Data}
    {items : List Document} :
    list? fields current items = some final ↔ Lists fields current items final := by
  constructor
  · intro listed
    fun_induction list? fields current items with
    | case1 => cases listed; exact .done
    | case2 => cases listed
    | case3 => cases listed
    | case4 field fields current document others value read recurse =>
        exact .item (Form.read?_eq_some_iff.mp read) (recurse listed)
  · intro lists
    induction lists with
    | done => rw [list?]
    | item reads _ recurse =>
        rw [list?, Form.read?_eq_some_iff.mpr reads]
        exact recurse

/-- What the reader of a record answers. -/
theorem reader_eq_ok_iff {document : Document} {data : Data} :
    Package.reader record document = .ok data ↔ record.read? document = some data := by
  simp only [Package.reader]
  cases record.read? document <;> simp

end Record

/-- The bundled package does what is asked of a package. -/
theorem bundled_conforms : Package.Conforms where
  grammar := {
    read_of_written := fun record document text _ written => by
      simp only [Package.read, read?_of_written written]
    refused_of_unwritten := fun record text unwritten data read => by
      cases found : Json.read? text with
      | none => simp [Package.read, found] at read
      | some document => exact unwritten document (read?_eq_some_iff.mp found)
    written_write := fun plain => by
      have writes := (writes_writeDocument _ plain).bare
      rwa [← String.toList_ofList (l := writeDocument _)] at writes }
  declarations := {
    object := fun record members data => by
      rw [Record.reader_eq_ok_iff, Record.read?, Record.fill?_eq_some_iff]
    array := fun record items data => by
      rw [Record.reader_eq_ok_iff, Record.read?, Record.list?_eq_some_iff]
    other := fun record document noObject noArray data read => by
      rw [Record.reader_eq_ok_iff] at read
      cases document with
      | object members => exact noObject members rfl
      | array items => exact noArray items rfl
      | null | bool | number | string => cases read
    writer := fun _ _ => rfl }

end PanelCalc.Json
