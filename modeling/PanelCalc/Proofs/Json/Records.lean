import Mathlib.Data.List.Nodup
import PanelCalc.Json.Record

/-!
# Records in documents

How a record is read from a document, said step by step and as a whole. The members of an object are
taken one after another, `Record.Fills`, and the items of an array go to the fields in their order,
`Lists`. For the outcome neither the order of the members nor those with other keys count: each field
has what the members with its key give to it, `Record.fills_iff`, and nothing is read just when one
of them cannot have that, `Record.not_fills_iff`.
-/

namespace PanelCalc.Json

/-- The documents that stand for a value. A choice is made by its name, as a string or as the only
key of an object, over `null`. -/
inductive Form.Reads : {Value : Type} → Form Value → Document → Value → Prop
  | flag {value : Bool} : Reads .flag (.bool value) value
  | named {Value : Type} {choice : Choice Value} {value : Value} :
      Reads (.choice choice) (.string (some (choice.name value))) value
  | keyed {Value : Type} {choice : Choice Value} {value : Value} :
      Reads (.choice choice) (.object [(some (choice.name value), .null)]) value

theorem Form.reads_write {Value : Type} (form : Form Value) (value : Value) :
    form.Reads (form.write value) value := by
  cases form with
  | flag => exact .flag
  | choice names => exact .named

/-- The documents that members of an object give to a key. -/
def valuesOf (key : String) (members : List (Option String × Document)) : List Document :=
  (members.filter fun member => member.1 = some key).map Prod.snd

section

variable {key : String} {document : Document} {others : List (Option String × Document)}

@[simp] theorem valuesOf_nil : valuesOf key [] = [] := rfl

@[simp] theorem valuesOf_cons_self :
    valuesOf key ((some key, document) :: others) = document :: valuesOf key others := by
  simp [valuesOf]

theorem valuesOf_cons_of_ne {other : Option String} (differ : other ≠ some key) :
    valuesOf key ((other, document) :: others) = valuesOf key others := by
  simp [valuesOf, differ]

end

/-! ## Fields -/

namespace Field

variable {Data : Type} (field : Field Data)

/-- What a field has in an object: its usual value if no member gives it one, and otherwise what its
only member stands for. -/
inductive Holds (usual : Data) (members : List (Option String × Document)) : field.Value → Prop
  | missing : valuesOf field.key members = [] → Holds usual members (field.get usual)
  | given {document : Document} {value : field.Value} :
      valuesOf field.key members = [document] → field.form.Reads document value →
        Holds usual members value

/-- What keeps a field from having a value in an object. -/
inductive Spoiled (members : List (Option String × Document)) : Prop
  | twice {first second : Document} {others : List Document} :
      valuesOf field.key members = first :: second :: others → Spoiled members
  | unacceptable {document : Document} :
      document ∈ valuesOf field.key members → (∀ value, ¬ field.form.Reads document value) →
        Spoiled members

/-- `Settles seen current members value` says what a field comes to when the rest of an object is
read and the fields with the `seen` keys have been given before: it is not given again, or else has
its value from the rest. -/
structure Settles (seen : List String) (current : Data)
    (members : List (Option String × Document)) (value : field.Value) : Prop where
  once : field.key ∈ seen → valuesOf field.key members = []
  holds : field.Holds current members value

variable {field} {seen : List String} {current other : Data}
  {members : List (Option String × Document)} {value : field.Value}

theorem Holds.congr (holds : field.Holds current members value)
    (same : field.get current = field.get other) : field.Holds other members value := by
  cases holds with
  | missing none => exact same ▸ .missing none
  | given only reads => exact .given only reads

theorem Holds.not_spoiled (holds : field.Holds current members value) :
    ¬ field.Spoiled members := by
  intro spoiled
  cases holds with
  | missing none =>
      cases spoiled with
      | twice several => simp [none] at several
      | unacceptable member _ => simp [none] at member
  | given only reads =>
      cases spoiled with
      | twice several => simp [only] at several
      | unacceptable member foreign =>
          rw [only, List.mem_singleton] at member
          subst member
          exact foreign _ reads

/-- Where nothing is left to read, a field keeps what it has. -/
theorem settles_nil : field.Settles seen current [] value ↔ value = field.get current := by
  constructor
  · rintro ⟨_, none | ⟨only, _⟩⟩
    · rfl
    · cases only
  · rintro rfl
    exact ⟨fun _ => rfl, .missing rfl⟩

/-- A member with another key has no part in a field. -/
theorem settles_cons_of_ne {key : String} {document : Document} {later : List String}
    (differ : key ≠ field.key) (seenLater : field.key ∈ later ↔ field.key ∈ seen)
    (same : field.get current = field.get other) :
    field.Settles seen current ((some key, document) :: members) value ↔
      field.Settles later other members value := by
  have skipped : valuesOf field.key ((some key, document) :: members) =
      valuesOf field.key members := valuesOf_cons_of_ne (by simpa using differ)
  constructor
  · rintro ⟨once, none | ⟨only, reads⟩⟩
    · exact ⟨fun given => skipped ▸ once (seenLater.mp given), same ▸ .missing (skipped ▸ none)⟩
    · exact ⟨fun given => skipped ▸ once (seenLater.mp given), .given (skipped ▸ only) reads⟩
  · rintro ⟨once, none | ⟨only, reads⟩⟩
    · refine ⟨fun given => skipped.trans (once (seenLater.mpr given)), ?_⟩
      exact same ▸ .missing (skipped.trans none)
    · exact ⟨fun given => skipped.trans (once (seenLater.mpr given)),
        .given (skipped.trans only) reads⟩

/-- A member of a field has to be the first one for it, and the last one. -/
theorem settles_cons_self {document : Document} :
    field.Settles seen current ((some field.key, document) :: members) value ↔
      field.key ∉ seen ∧ field.form.Reads document value ∧ valuesOf field.key members = [] := by
  constructor
  · rintro ⟨once, none | ⟨only, reads⟩⟩
    · simp at none
    · rw [valuesOf_cons_self, List.cons.injEq] at only
      obtain ⟨rfl, last⟩ := only
      exact ⟨fun given => by simpa using once given, reads, last⟩
  · rintro ⟨fresh, reads, last⟩
    exact ⟨fun given => absurd given fresh, .given (by rw [valuesOf_cons_self, last]) reads⟩

/-- Whether a field that has been given comes to a value depends on its not being given again. -/
theorem settles_of_mem (given : field.key ∈ seen) :
    field.Settles seen current members value ↔
      valuesOf field.key members = [] ∧ value = field.get current := by
  constructor
  · rintro ⟨once, none | ⟨only, _⟩⟩
    · exact ⟨none, rfl⟩
    · simp [once given] at only
  · rintro ⟨none, rfl⟩
    exact ⟨fun _ => none, .missing none⟩

/-- What keeps a field from coming to a value when the rest of an object is read. -/
def Stuck (field : Field Data) (seen : List String) (members : List (Option String × Document)) :
    Prop :=
  (field.key ∈ seen ∧ valuesOf field.key members ≠ []) ∨ field.Spoiled members

theorem Stuck.cons_of_ne {key : Option String} {document : Document}
    (stuck : field.Stuck seen members) (differ : key ≠ some field.key) :
    field.Stuck seen ((key, document) :: members) := by
  have skipped : valuesOf field.key ((key, document) :: members) = valuesOf field.key members :=
    valuesOf_cons_of_ne differ
  rcases stuck with ⟨given, again⟩ | several | ⟨inside, foreign⟩
  · exact .inl ⟨given, skipped ▸ again⟩
  · exact .inr (.twice (skipped.trans several))
  · exact .inr (.unacceptable (skipped ▸ inside) foreign)

theorem Stuck.cons_self {document : Document} (stuck : field.Stuck (field.key :: seen) members) :
    field.Stuck seen ((some field.key, document) :: members) := by
  rcases stuck with ⟨_, again⟩ | several | ⟨inside, foreign⟩
  · obtain ⟨second, later, several⟩ := List.exists_cons_of_ne_nil again
    exact .inr (.twice (by rw [valuesOf_cons_self, several]))
  · exact .inr (.twice (by rw [valuesOf_cons_self, several]))
  · exact .inr (.unacceptable (by rw [valuesOf_cons_self]; exact .tail _ inside) foreign)

end Field

/-! ## Objects -/

namespace Record

variable {Data : Type} (record : Record Data)

/-- `record.Fills seen current members final` says that reading the rest of an object makes the data
`final` out of `current`. A field whose key is among the `seen` ones has been given before and is
not given again. The values of other keys are skipped. -/
inductive Fills : List String → Data → List (Option String × Document) → Data → Prop
  | done {seen : List String} {data : Data} : Fills seen data [] data
  | field {seen : List String} {current final : Data} {field : Field Data} {document : Document}
      {value : field.Value} {others : List (Option String × Document)} :
      field ∈ record.fields → field.key ∉ seen → field.form.Reads document value →
      Fills (field.key :: seen) (field.put current value) others final →
        Fills seen current ((some field.key, document) :: others) final
  | skipped {seen : List String} {current final : Data} {key : String} {document : Document}
      {others : List (Option String × Document)} :
      key ∉ record.keys → Fills seen current others final →
        Fills seen current ((some key, document) :: others) final

variable {record} {field other : Field Data} {seen : List String} {current final : Data}
  {members : List (Option String × Document)}

theorem key_mem_keys (member : field ∈ record.fields) : field.key ∈ record.keys :=
  List.mem_map.mpr ⟨field, member, rfl⟩

/-- No two fields have the same key. -/
theorem eq_of_key_eq (member : field ∈ record.fields) (otherMember : other ∈ record.fields)
    (same : field.key = other.key) : field = other :=
  List.inj_on_of_nodup_map record.nodup member otherMember same

/-- A member of a field decides what that field comes to, and no other one. -/
theorem settles_put {document : Document} (member : field ∈ record.fields)
    (fresh : field.key ∉ seen) (reads : field.form.Reads document (field.get final)) :
    (∀ other ∈ record.fields,
      other.Settles seen current ((some field.key, document) :: members) (other.get final)) ↔
    ∀ other ∈ record.fields, other.Settles (field.key :: seen)
      (field.put current (field.get final)) members (other.get final) := by
  refine forall₂_congr fun other otherMember => ?_
  by_cases keys : field.key = other.key
  · obtain rfl := eq_of_key_eq member otherMember keys
    rw [Field.settles_cons_self, Field.settles_of_mem List.mem_cons_self, field.get_put]
    exact ⟨fun ⟨_, _, last⟩ => ⟨last, rfl⟩, fun ⟨last, _⟩ => ⟨fresh, reads, last⟩⟩
  · exact Field.settles_cons_of_ne keys (by simp [Ne.symm keys])
      (record.get_put_of_ne other otherMember field member (Ne.symm keys) current _).symm

/-- A member whose key no field has decides nothing. -/
theorem settles_skipped {key : String} {document : Document} (foreign : key ∉ record.keys) :
    (∀ other ∈ record.fields,
      other.Settles seen current ((some key, document) :: members) (other.get final)) ↔
    ∀ other ∈ record.fields, other.Settles seen current members (other.get final) := by
  refine forall₂_congr fun other member => ?_
  refine Field.settles_cons_of_ne ?_ Iff.rfl rfl
  rintro rfl
  exact foreign (key_mem_keys member)

theorem fills_nil_iff : record.Fills seen current [] final ↔ final = current := by
  constructor
  · rintro ⟨⟩
    rfl
  · rintro rfl
    exact .done

/-- How a member of a field is read. -/
theorem Fills.of_cons {document : Document} {others : List (Option String × Document)}
    (fills : record.Fills seen current ((some field.key, document) :: others) final)
    (member : field ∈ record.fields) :
    ∃ value, field.form.Reads document value ∧
      record.Fills (field.key :: seen) (field.put current value) others final := by
  generalize same : (some field.key, document) :: others = members at fills
  cases fills with
  | done => cases same
  | @field _ _ _ other _ value _ otherMember _ reads rest =>
      simp only [List.cons.injEq, Prod.mk.injEq, Option.some.injEq] at same
      obtain ⟨⟨key, rfl⟩, rfl⟩ := same
      obtain rfl := eq_of_key_eq member otherMember key
      exact ⟨value, reads, rest⟩
  | skipped foreign _ =>
      simp only [List.cons.injEq, Prod.mk.injEq, Option.some.injEq] at same
      obtain ⟨⟨rfl, _⟩, _⟩ := same
      exact absurd (key_mem_keys member) foreign

/-- Reading the rest of an object gives every field what it comes to. -/
theorem fills_iff_settles (texts : ∀ member ∈ members, member.1 ≠ none) :
    record.Fills seen current members final ↔
      ∀ field ∈ record.fields, field.Settles seen current members (field.get final) := by
  constructor
  · intro fills
    induction fills with
    | done => exact fun field _ => Field.settles_nil.mpr rfl
    | @field seen current final field document value others member fresh reads rest recurse =>
        have settles := recurse fun other inside => texts other (List.mem_cons_of_mem _ inside)
        -- The field is not given again, so that it keeps the value it has been given here.
        have kept := (Field.settles_of_mem List.mem_cons_self).mp (settles field member)
        rw [field.get_put] at kept
        obtain ⟨_, rfl⟩ := kept
        exact (settles_put member fresh reads).mpr settles
    | skipped foreign _ recurse =>
        exact (settles_skipped foreign).mpr
          (recurse fun other inside => texts other (List.mem_cons_of_mem _ inside))
  · intro settles
    induction members generalizing seen current with
    | nil =>
        have same : final = current :=
          record.ext _ _ fun field member => Field.settles_nil.mp (settles field member)
        exact same ▸ .done
    | cons first others recurse =>
        obtain ⟨key?, document⟩ := first
        have otherTexts : ∀ member ∈ others, member.1 ≠ none :=
          fun member inside => texts member (List.mem_cons_of_mem _ inside)
        obtain ⟨key, rfl⟩ : ∃ key, key? = some key :=
          Option.ne_none_iff_exists'.mp (texts _ List.mem_cons_self)
        by_cases known : key ∈ record.keys
        · obtain ⟨field, member, rfl⟩ := List.mem_map.mp known
          obtain ⟨fresh, reads, _⟩ := Field.settles_cons_self.mp (settles field member)
          exact .field member fresh reads
            (recurse otherTexts ((settles_put member fresh reads).mp settles))
        · exact .skipped known (recurse otherTexts ((settles_skipped known).mp settles))

/-- An object is read as the data of which every field has what the object gives to it. -/
theorem fills_iff (texts : ∀ member ∈ members, member.1 ≠ none) {data : Data} :
    record.Fills [] record.usual members data ↔
      ∀ field ∈ record.fields, field.Holds record.usual members (field.get data) := by
  rw [fills_iff_settles texts]
  refine forall₂_congr fun field _ => ?_
  constructor
  · exact Field.Settles.holds
  · exact fun holds => ⟨fun given => absurd given List.not_mem_nil, holds⟩

/-- Reading the rest of an object comes to its end, or a field is stuck. -/
theorem exists_fills_or_stuck (texts : ∀ member ∈ members, member.1 ≠ none) (seen : List String)
    (current : Data) :
    (∃ final, record.Fills seen current members final) ∨
      ∃ field ∈ record.fields, field.Stuck seen members := by
  induction members generalizing seen current with
  | nil => exact .inl ⟨current, .done⟩
  | cons first others recurse =>
      obtain ⟨key?, document⟩ := first
      have otherTexts : ∀ member ∈ others, member.1 ≠ none :=
        fun member inside => texts member (List.mem_cons_of_mem _ inside)
      obtain ⟨key, rfl⟩ : ∃ key, key? = some key :=
        Option.ne_none_iff_exists'.mp (texts _ List.mem_cons_self)
      by_cases known : key ∈ record.keys
      case neg =>
        obtain ⟨final, fills⟩ | ⟨field, member, stuck⟩ := recurse otherTexts seen current
        · exact .inl ⟨final, .skipped known fills⟩
        · refine .inr ⟨field, member, stuck.cons_of_ne ?_⟩
          rintro same
          cases same
          exact known (key_mem_keys member)
      case pos =>
        obtain ⟨field, member, rfl⟩ := List.mem_map.mp known
        by_cases given : field.key ∈ seen
        · exact .inr ⟨field, member, .inl ⟨given, by simp⟩⟩
        by_cases readable : ∃ value, field.form.Reads document value
        · obtain ⟨value, reads⟩ := readable
          obtain ⟨final, fills⟩ | ⟨other, otherMember, stuck⟩ :=
            recurse otherTexts (field.key :: seen) (field.put current value)
          · exact .inl ⟨final, .field member given reads fills⟩
          refine .inr ⟨other, otherMember, ?_⟩
          by_cases same : field.key = other.key
          · obtain rfl := eq_of_key_eq member otherMember same
            exact stuck.cons_self
          · refine Field.Stuck.cons_of_ne ?_ (by simpa using same)
            exact stuck.imp_left fun ⟨inside, again⟩ =>
              ⟨(List.mem_cons.mp inside).resolve_left (Ne.symm same), again⟩
        · exact .inr ⟨field, member, .inr
            (.unacceptable (by simp) (not_exists.mp readable))⟩

/-- An object is read as no data just when one of the fields cannot have what the object gives to
it. -/
theorem not_fills_iff (texts : ∀ member ∈ members, member.1 ≠ none) :
    (¬ ∃ data, record.Fills [] record.usual members data) ↔
      ∃ field ∈ record.fields, field.Spoiled members := by
  constructor
  · intro unread
    obtain ⟨field, member, ⟨given, _⟩ | spoiled⟩ :=
      (exists_fills_or_stuck texts [] record.usual).resolve_left unread
    · cases given
    · exact ⟨field, member, spoiled⟩
  · rintro ⟨field, member, spoiled⟩ ⟨data, fills⟩
    exact ((fills_iff texts).mp fills field member).not_spoiled spoiled

/-- The members of an object that are read. -/
def known (record : Record Data) (members : List (Option String × Document)) :
    List (Option String × Document) :=
  members.filter fun member => member.1 ∈ record.keys.map some

theorem valuesOf_known {key : String} (listed : key ∈ record.keys)
    (members : List (Option String × Document)) :
    valuesOf key (record.known members) = valuesOf key members := by
  rw [valuesOf, valuesOf, known, List.filter_filter]
  congr 1
  refine List.filter_congr fun member _ => ?_
  by_cases same : member.1 = some key
  · simp [same, listed]
  · simp [same]

/-- What an object gives to a field depends neither on the order of its members nor on those with
other keys. -/
theorem holds_of_perm {others : List (Option String × Document)} {value : field.Value}
    (member : field ∈ record.fields) (same : (record.known members).Perm (record.known others))
    (holds : field.Holds current members value) : field.Holds current others value := by
  have values : (valuesOf field.key members).Perm (valuesOf field.key others) := by
    rw [← valuesOf_known (key_mem_keys member) members, ← valuesOf_known (key_mem_keys member) others]
    exact (same.filter _).map _
  cases holds with
  | missing none => exact .missing (List.nil_perm.mp (none ▸ values))
  | given only reads => exact .given (List.singleton_perm.mp (only ▸ values)).symm reads

end Record

/-! ## Arrays -/

/-- `Lists fields current items final` says that giving items to fields in their order makes the
data `final` out of `current`. There are no more items than fields. -/
inductive Lists {Data : Type} : List (Field Data) → Data → List Document → Data → Prop
  | done {fields : List (Field Data)} {data : Data} : Lists fields data [] data
  | item {field : Field Data} {fields : List (Field Data)} {current final : Data}
      {document : Document} {value : field.Value} {others : List Document} :
      field.form.Reads document value → Lists fields (field.put current value) others final →
        Lists (field :: fields) current (document :: others) final

theorem lists_nil_iff {Data : Type} {fields : List (Field Data)} {current final : Data} :
    Lists fields current [] final ↔ final = current := by
  constructor
  · rintro ⟨⟩
    rfl
  · rintro rfl
    exact .done

/-- Items as the members that they stand for. -/
def labelled (keys : List String) (items : List Document) : List (Option String × Document) :=
  (keys.map some).zip items

namespace Record

variable {Data : Type} {record : Record Data}

/-- Giving items to fields is filling them from the members that the items stand for. -/
theorem lists_iff_fills {fields : List (Field Data)} {seen : List String} {current final : Data}
    {items : List Document} (inside : ∀ field ∈ fields, field ∈ record.fields)
    (apart : (fields.map Field.key).Nodup) (fresh : ∀ field ∈ fields, field.key ∉ seen) :
    Lists fields current items final ↔ items.length ≤ fields.length ∧
      record.Fills seen current (labelled (fields.map Field.key) items) final := by
  induction fields generalizing seen current items with
  | nil =>
      cases items with
      | nil => simp [labelled, lists_nil_iff, fills_nil_iff]
      | cons document others =>
          constructor
          · rintro ⟨⟩
          · rintro ⟨long, _⟩
            simp at long
  | cons field fields recurse =>
      cases items with
      | nil => simp [labelled, lists_nil_iff, fills_nil_iff]
      | cons document others =>
          rw [List.map_cons, List.nodup_cons] at apart
          have member := inside field List.mem_cons_self
          have othersInside : ∀ other ∈ fields, other ∈ record.fields := fun other listed =>
            inside other (List.mem_cons_of_mem _ listed)
          have othersFresh : ∀ other ∈ fields, other.key ∉ field.key :: seen := by
            intro other listed given
            rcases List.mem_cons.mp given with same | given
            · exact apart.1 (same ▸ List.mem_map.mpr ⟨other, listed, rfl⟩)
            · exact fresh other (List.mem_cons_of_mem _ listed) given
          have later (value : field.Value) :=
            @recurse (field.key :: seen) (field.put current value) others othersInside apart.2
              othersFresh
          constructor
          · rintro (_ | ⟨reads, rest⟩)
            obtain ⟨short, fills⟩ := (later _).mp rest
            exact ⟨Nat.succ_le_succ short, .field member (fresh field List.mem_cons_self) reads fills⟩
          · rintro ⟨short, fills⟩
            obtain ⟨value, reads, rest⟩ := fills.of_cons member
            exact .item reads ((later value).mpr ⟨Nat.le_of_succ_le_succ short, rest⟩)

end Record
end PanelCalc.Json
