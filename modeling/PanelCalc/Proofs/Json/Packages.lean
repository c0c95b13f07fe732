import PanelCalc.Json.Package
import PanelCalc.Proofs.Json.Grammar
import PanelCalc.Proofs.Json.Records

/-!
# What JSON packages do

The calculator takes its JSON package as it is and relies on two things only, `Package.Conforms`:
the package keeps to the grammar of JSON, and it reads and writes records as they have been declared
to it. What a declaration makes of a document as a whole follows: the data that it stands for,
`Record.StandsFor`, and the documents that stand for none, `Record.Unreadable`.
-/

namespace PanelCalc.Json

/-- The documents whose strings are texts. -/
inductive Document.Plain : Document → Prop
  | null : Plain .null
  | bool {value : Bool} : Plain (.bool value)
  | number : Plain .number
  | string {text : String} : Plain (.string (some text))
  | array {items : List Document} : (∀ item ∈ items, Plain item) → Plain (.array items)
  | object {members : List (Option String × Document)} :
      (∀ member ∈ members, member.1 ≠ none) → (∀ member ∈ members, Plain member.2) →
        Plain (.object members)

namespace Package

/-- A package that keeps to the grammar of JSON, on both sides. -/
structure FollowsGrammar [Package] : Prop where
  /-- Every text of a document is read as the document. -/
  read_of_written : ∀ {Data : Type} (record : Record Data) {document : Document} {text : String},
    document.Plain → Written document text →
      (read (reader record) text).toOption = (reader record document).toOption
  /-- A text of no document is refused. -/
  refused_of_unwritten : ∀ {Data : Type} (record : Record Data) {text : String},
    (∀ document, ¬ Written document text) → ∀ data, read (reader record) text ≠ .ok data
  /-- What a document is written as is a text of it. -/
  written_write : ∀ {document : Document}, document.Plain → Written document (write document)

/-- A package that reads and writes what has been declared to it. Records are read from objects
member by member, and from arrays item by item. -/
structure FollowsDeclarations [Package] : Prop where
  object : ∀ {Data : Type} (record : Record Data) (members : List (Option String × Document))
    (data : Data), reader record (.object members) = .ok data ↔
      record.Fills [] record.usual members data
  array : ∀ {Data : Type} (record : Record Data) (items : List Document) (data : Data),
    reader record (.array items) = .ok data ↔ Lists record.fields record.usual items data
  other : ∀ {Data : Type} (record : Record Data) {document : Document},
    (∀ members, document ≠ .object members) → (∀ items, document ≠ .array items) →
      ∀ data, reader record document ≠ .ok data
  writer : ∀ {Data : Type} (record : Record Data) (data : Data),
    writer record data = record.write data

/-- What is asked of a package. -/
structure Conforms [Package] : Prop where
  grammar : FollowsGrammar
  declarations : FollowsDeclarations

end Package

/-! ## Documents -/

namespace Record

variable {Data : Type} (record : Record Data)

/-- The data that a document stands for. The items of an array stand for the fields in the order in
which those are written. -/
inductive StandsFor : Document → Data → Prop
  | object {members : List (Option String × Document)} {data : Data} :
      (∀ field ∈ record.fields, field.Holds record.usual members (field.get data)) →
        StandsFor (.object members) data
  | array {items : List Document} {data : Data} :
      items.length ≤ record.fields.length →
      StandsFor (.object (labelled record.keys items)) data → StandsFor (.array items) data

/-- The documents that stand for no data. -/
inductive Unreadable : Document → Prop
  | field {members : List (Option String × Document)} {field : Field Data} :
      field ∈ record.fields → field.Spoiled members → Unreadable (.object members)
  | long {items : List Document} : record.fields.length < items.length → Unreadable (.array items)
  | item {items : List Document} :
      Unreadable (.object (labelled record.keys items)) → Unreadable (.array items)
  | other {document : Document} :
      (∀ members, document ≠ .object members) → (∀ items, document ≠ .array items) →
        Unreadable document

variable {record} {members : List (Option String × Document)} {items : List Document} {data : Data}

theorem standsFor_object_iff : record.StandsFor (.object members) data ↔
    ∀ field ∈ record.fields, field.Holds record.usual members (field.get data) := by
  constructor
  · rintro ⟨holds⟩
    exact holds
  · exact .object

theorem standsFor_array_iff : record.StandsFor (.array items) data ↔
    items.length ≤ record.fields.length ∧
      record.StandsFor (.object (labelled record.keys items)) data := by
  constructor
  · rintro (_ | ⟨short, stands⟩)
    exact ⟨short, stands⟩
  · rintro ⟨short, stands⟩
    exact .array short stands

theorem unreadable_object_iff :
    record.Unreadable (.object members) ↔ ∃ field ∈ record.fields, field.Spoiled members := by
  constructor
  · rintro (⟨member, spoiled⟩ | _ | _ | ⟨noObject, _⟩)
    · exact ⟨_, member, spoiled⟩
    · exact absurd rfl (noObject members)
  · rintro ⟨field, member, spoiled⟩
    exact .field member spoiled

theorem unreadable_array_iff : record.Unreadable (.array items) ↔
    (items.length ≤ record.fields.length →
      record.Unreadable (.object (labelled record.keys items))) := by
  constructor
  · rintro (_ | long | unreadable | ⟨_, noArray⟩) short
    · omega
    · exact unreadable
    · exact absurd rfl (noArray items)
  · intro unreadable
    by_cases short : items.length ≤ record.fields.length
    · exact .item (unreadable short)
    · exact .long (Nat.lt_of_not_le short)

/-- The labels of items are texts. -/
theorem labelled_ne_none {keys : List String} :
    ∀ member ∈ labelled keys items, member.1 ≠ none := by
  rintro ⟨key, document⟩ member rfl
  obtain ⟨_, _, impossible⟩ := List.mem_map.mp (List.of_mem_zip member).1
  cases impossible

theorem plain_write (data : Data) : (record.write data).Plain := by
  have plain {Value : Type} (form : Form Value) (value : Value) : (form.write value).Plain := by
    cases form with
    | flag => exact .bool
    | choice names => exact .string
  refine .object ?_ ?_
  all_goals
    intro member inside
    obtain ⟨field, _, rfl⟩ := List.mem_map.mp inside
  · simp
  · exact plain _ _

/-- The one value that a written record gives to the key of a field. -/
theorem valuesOf_write {field : Field Data} (member : field ∈ record.fields) (data : Data) :
    valuesOf field.key (record.fields.map fun field =>
      (some field.key, field.form.write (field.get data))) =
        [field.form.write (field.get data)] := by
  have nodup := record.nodup
  generalize record.fields = fields at member nodup
  induction fields with
  | nil => cases member
  | cons first others recurse =>
      rw [List.map_cons, List.nodup_cons] at nodup
      rw [List.map_cons]
      obtain rfl | member := List.mem_cons.mp member
      · have none : valuesOf field.key (others.map fun field =>
            (some field.key, field.form.write (field.get data))) = [] := by
          rw [valuesOf, List.map_eq_nil_iff, List.filter_eq_nil_iff]
          rintro given inside
          obtain ⟨other, listed, rfl⟩ := List.mem_map.mp inside
          have differ : other.key ≠ field.key :=
            fun same => nodup.1 (same ▸ List.mem_map.mpr ⟨other, listed, rfl⟩)
          simpa using differ
        rw [valuesOf_cons_self, none]
      · have differ : first.key ≠ field.key :=
          fun same => nodup.1 (same ▸ List.mem_map.mpr ⟨field, member, rfl⟩)
        rw [valuesOf_cons_of_ne (by simpa using differ), recurse member nodup.2]

/-- A written record stands for its data. -/
theorem standsFor_write (data : Data) : record.StandsFor (record.write data) data :=
  .object fun field member => .given (valuesOf_write member data) (field.form.reads_write _)

/-- Objects with the same members for fields, in whatever order, stand for the same data. -/
theorem standsFor_of_perm {others : List (Option String × Document)}
    (same : (record.known members).Perm (record.known others)) :
    record.StandsFor (.object members) data ↔ record.StandsFor (.object others) data := by
  rw [standsFor_object_iff, standsFor_object_iff]
  refine forall₂_congr fun field member => ?_
  exact ⟨holds_of_perm member same, holds_of_perm member same.symm⟩

end Record

/-! ## Packages -/

namespace Package.Conforms

open Package

variable [Package] {Data : Type} {record : Record Data} {document : Document}
  {data : Data}

/-- A reader reads what a document stands for. -/
theorem reader_eq_ok_iff (conforms : Conforms) (plain : document.Plain) :
    reader record document = .ok data ↔ record.StandsFor document data := by
  have follows := conforms.declarations
  cases plain with
  | object texts _ =>
      rw [follows.object, Record.fills_iff texts, Record.standsFor_object_iff]
  | array _ =>
      rw [follows.array, Record.lists_iff_fills (fun _ member => member) record.nodup
        (fun _ _ => List.not_mem_nil), Record.standsFor_array_iff, Record.standsFor_object_iff]
      exact and_congr_right fun _ => Record.fills_iff Record.labelled_ne_none
  | _ =>
      constructor
      · exact fun read => absurd read (follows.other record (by simp) (by simp) data)
      · rintro ⟨⟩

/-- A reader refuses the documents that stand for nothing. -/
theorem reader_refuses_iff (conforms : Conforms) (plain : document.Plain) :
    (∀ data, reader record document ≠ .ok data) ↔ record.Unreadable document := by
  have unread (members : List (Option String × Document))
      (texts : ∀ member ∈ members, member.1 ≠ none) :
      (∀ data, ¬ record.StandsFor (.object members) data) ↔
        record.Unreadable (.object members) := by
    rw [Record.unreadable_object_iff, ← Record.not_fills_iff texts, not_exists]
    refine forall_congr' fun data => not_congr ?_
    rw [Record.standsFor_object_iff, Record.fills_iff texts]
  simp only [ne_eq, conforms.reader_eq_ok_iff plain]
  cases plain with
  | object texts _ => exact unread _ texts
  | array _ =>
      rw [Record.unreadable_array_iff, ← unread _ Record.labelled_ne_none]
      simp only [Record.standsFor_array_iff, not_and]
      exact forall_comm
  | _ => exact ⟨fun _ => .other (by simp) (by simp), fun _ _ => by rintro ⟨⟩⟩

/-- What has been written is read again. -/
theorem read_write (conforms : Conforms) (record : Record Data) (data : Data) :
    read (reader record) (write (writer record data)) = .ok data := by
  have plain : (writer record data).Plain := conforms.declarations.writer record data ▸
    Record.plain_write data
  have same := conforms.grammar.read_of_written record plain (conforms.grammar.written_write plain)
  rw [conforms.declarations.writer, (conforms.reader_eq_ok_iff (Record.plain_write data)).mpr
    (Record.standsFor_write data)] at same
  rw [conforms.declarations.writer]
  cases outcome : read (reader record) (write (record.write data)) with
  | error cause =>
      rw [outcome] at same
      cases same
  | ok found =>
      rw [outcome] at same
      cases same
      rfl

end Package.Conforms
end PanelCalc.Json
