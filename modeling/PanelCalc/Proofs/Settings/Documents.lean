import PanelCalc.Proofs.Json.Bundled
import PanelCalc.Settings.Json

/-!
# Settings from documents

Settings are read from a JSON text as the document that it is a text of says, and so from every
other text of the document: `Settings.ofJson_of_written`. That is so for every JSON package that does
what is asked of it. Which settings a document stands for follows from their declaration,
`Settings.record`.
-/

namespace PanelCalc.Settings

open Json

section

variable [Package] {text : String} {document : Document} {settings : Settings}

theorem ofJson_eq_ok_iff :
    ofJson text = .ok settings ↔ Package.read (Package.reader record) text = .ok settings := by
  unfold ofJson
  cases Package.read (Package.reader record) text <;> simp

/-- There is one way in which reading settings fails. -/
theorem ofJson_eq_error {fault : Fault} (failed : ofJson text = .error fault) :
    ∃ cause, fault = .settingsFormat cause := by
  unfold ofJson at failed
  split at failed
  · cases failed
  · cases failed
    exact ⟨_, rfl⟩

theorem refused_iff : (∃ cause, ofJson text = .error (.settingsFormat cause)) ↔
    ∀ settings, ofJson text ≠ .ok settings := by
  constructor
  · rintro ⟨cause, failed⟩ settings read
    rw [failed] at read
    cases read
  · intro unread
    cases outcome : ofJson text with
    | ok settings => exact absurd outcome (unread settings)
    | error fault =>
        obtain ⟨cause, rfl⟩ := ofJson_eq_error outcome
        exact ⟨cause, rfl⟩

/-- A text of a document is read as the reader of the settings reads the document. -/
theorem ofJson_eq_ok_iff_of_written (conforms : Package.Conforms) (plain : document.Plain)
    (written : Written document text) :
    ofJson text = .ok settings ↔ Package.reader record document = .ok settings := by
  have same := conforms.grammar.read_of_written record plain written
  rw [ofJson_eq_ok_iff]
  cases read : Package.read (Package.reader record) text <;>
    cases reads : Package.reader record document <;> simp_all [Except.toOption]

/-- What a text of a document reads as depends on the document only. -/
structure ReadsAlike (document : Document) (text : String) : Prop where
  /-- Every other text of the document reads as the same. -/
  alike : ∀ other, Written document other → (ofJson other).toOption = (ofJson text).toOption
  /-- The settings that are read are the ones that the document stands for. -/
  accepted : ∀ settings, ofJson text = .ok settings ↔ record.StandsFor document settings
  /-- From an object, each setting has what the members with its key give to it. -/
  fields : ∀ members settings, document = .object members →
    (ofJson text = .ok settings ↔
      transferModeField.Holds {} members settings.transferMode ∧
      themeField.Holds {} members settings.theme ∧ hapticsField.Holds {} members settings.haptics)
  /-- What stands for no settings is refused. -/
  refused : (∃ cause, ofJson text = .error (.settingsFormat cause)) ↔ record.Unreadable document
  /-- There is no other outcome. -/
  settled : (∃ settings, ofJson text = .ok settings) ∨
    ∃ cause, ofJson text = .error (.settingsFormat cause)
  /-- Neither the order of the members nor members with other keys count. -/
  rearranged : ∀ members others other, document = .object members → (Document.object others).Plain →
    Written (.object others) other → (record.known members).Perm (record.known others) →
      (ofJson other).toOption = (ofJson text).toOption

/-- Texts from which the same settings are read have the same outcome. -/
theorem toOption_ofJson_eq {other : String}
    (same : ∀ settings, ofJson other = .ok settings ↔ ofJson text = .ok settings) :
    (ofJson other).toOption = (ofJson text).toOption := by
  cases outcome : ofJson text with
  | ok settings => rw [(same settings).mpr outcome]
  | error fault =>
      cases otherOutcome : ofJson other with
      | ok settings =>
          rw [(same settings).mp otherOutcome] at outcome
          cases outcome
      | error _ => rfl

/-- Every text of a document whose strings are texts is read as the document says. -/
theorem ofJson_of_written (conforms : Package.Conforms) (plain : document.Plain)
    (written : Written document text) : ReadsAlike document text := by
  have accepted (settings : Settings) :
      ofJson text = .ok settings ↔ record.StandsFor document settings := by
    rw [ofJson_eq_ok_iff_of_written conforms plain written, conforms.reader_eq_ok_iff plain]
  constructor
  case alike =>
    intro other otherWritten
    refine toOption_ofJson_eq fun settings => ?_
    rw [ofJson_eq_ok_iff_of_written conforms plain otherWritten,
      ofJson_eq_ok_iff_of_written conforms plain written]
  case accepted => exact accepted
  case fields =>
    rintro members settings rfl
    rw [accepted, Record.standsFor_object_iff]
    simp [record, transferModeField, themeField, hapticsField]
  case refused =>
    rw [refused_iff, ← conforms.reader_refuses_iff plain]
    exact forall_congr' fun settings =>
      not_congr (ofJson_eq_ok_iff_of_written conforms plain written)
  case settled =>
    by_cases read : ∃ settings, ofJson text = .ok settings
    · exact .inl read
    · exact .inr (refused_iff.mpr (not_exists.mp read))
  case rearranged =>
    rintro members others other rfl otherPlain otherWritten same
    refine toOption_ofJson_eq fun settings => ?_
    rw [accepted, Record.standsFor_of_perm same,
      ofJson_eq_ok_iff_of_written conforms otherPlain otherWritten,
      conforms.reader_eq_ok_iff otherPlain]

/-- A text of no document is refused. -/
theorem ofJson_of_unwritten (conforms : Package.Conforms)
    (unwritten : ∀ document, ¬ Written document text) :
    ∃ cause, ofJson text = .error (.settingsFormat cause) := by
  refine refused_iff.mpr fun settings read => ?_
  exact conforms.grammar.refused_of_unwritten record unwritten settings (ofJson_eq_ok_iff.mp read)

/-- Settings are read as they are written. -/
theorem ofJson_toJson (conforms : Package.Conforms) (settings : Settings) :
    ofJson settings.toJson = .ok settings :=
  ofJson_eq_ok_iff.mpr (conforms.read_write record settings)

end

/-- White space, escapes, a pair of surrogates and members with other keys do not count. -/
theorem ofJson_of_written_of_escaped_key :
    ∃ document text,
      text = "\x7b \"\\u0074heme\":\x7b\"light\":null\x7d,\"a\":[-2E3],\"a\":\"\\uD83D\\uDE00\"\x7d" ∧
        document.Plain ∧ Written document text ∧
        record.StandsFor document ⟨.overwrite, .light, true⟩ ∧ ReadsAlike document text := by
  refine ⟨.object [(some "theme", .object [(some "light", .null)]),
    (some "a", .array [.number]), (some "a", .string (some "😀"))], _, rfl, ?_⟩
  suffices known : Document.Plain _ ∧ Written _ _ from
    ⟨known.1, known.2, (bundled_conforms.reader_eq_ok_iff known.1).mp rfl,
      ofJson_of_written bundled_conforms known.1 known.2⟩
  constructor
  · refine .object (by simp) ?_
    simp only [List.forall_mem_cons, List.not_mem_nil, false_implies, implies_true, and_true]
    refine ⟨.object (by simp) ?_, .array ?_, .string⟩
    · simpa using Document.Plain.null
    · simpa using Document.Plain.number
  · exact read?_eq_some_iff.mp (by cbv)

end PanelCalc.Settings
