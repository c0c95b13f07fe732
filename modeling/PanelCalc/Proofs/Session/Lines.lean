import Mathlib.Data.List.TakeWhile
import PanelCalc.Proofs.Session.Keys
import PanelCalc.Proofs.Session.Performance

/-!
# What lines mean

What a line asks for, said by its words and its characters: `Line.Means`. Sessions take every line
that is a text for what it says, `Line.ofBytes?_eq_some_iff`, and they take the lines of a script up
to the first farewell, `Line.heard_iff`.
-/

namespace PanelCalc.Session

/-! ## Keys -/

/-- `Stroke.Means char stroke` says what a character of a key line stands for. -/
inductive Stroke.Means : Char → Stroke → Prop
  | type {char : Char} : char ∈ Keypad.typing → Means char (.act (.type char.toString))
  /-- Where there is no key with the multiplication sign, an `x` does for it. -/
  | times : Means 'x' (.act (.type "×"))
  | evaluate : Means '=' (.act .evaluate)
  | backspace : Means '⌫' (.act .backspace)
  | clear : Means 'C' (.act .clear)
  | gap {char : Char} : Text.isBlank char = true → Means char .gap
  | unknown {char : Char} : char ∉ 'x' :: '=' :: '⌫' :: 'C' :: Keypad.typing →
      Text.isBlank char = false → Means char (.unknown char)

theorem ofChar_of_mem_typing {char : Char} (types : char ∈ Keypad.typing) :
    Stroke.ofChar char = .act (.type char.toString) := by
  have itself : Keypad.typing.all fun char =>
      Stroke.ofChar char = .act (.type char.toString) := by decide
  exact of_decide_eq_true (List.all_eq_true.mp itself char types)

theorem Stroke.means_ofChar (char : Char) : Means char (ofChar char) := by
  by_cases isKey : char ∈ 'x' :: '=' :: '⌫' :: 'C' :: Keypad.typing
  · simp only [List.mem_cons] at isKey
    obtain rfl | rfl | rfl | rfl | types := isKey
    · exact .times
    · exact .evaluate
    · exact .backspace
    · exact .clear
    · rw [ofChar_of_mem_typing types]
      exact .type types
  · rw [ofChar_of_noKey isKey]
    cases blank : Text.isBlank char with
    | true => exact .gap blank
    | false => exact .unknown isKey blank

theorem Stroke.ofChar_eq_iff {char : Char} {stroke : Stroke} :
    ofChar char = stroke ↔ Means char stroke := by
  constructor
  · rintro rfl
    exact means_ofChar char
  · intro means
    cases means with
    | type types => exact ofChar_of_mem_typing types
    | times | evaluate | backspace | clear => rfl
    | gap blank => exact ofChar_of_isBlank blank
    | unknown noKey visible => rw [ofChar_of_noKey noKey, visible, if_neg Bool.false_ne_true]

/-! ## Commands -/

/-- The names of the command that ends a session. -/
def Command.farewells : List String := ["quit", "q", "exit"]

/-- The names of all commands. -/
def Command.names : List String :=
  ["top", "bottom", "up", "down", "back", "clear", "eval", "set", "show", "help"] ++ farewells

/-- `Command.Means words command` says what the words behind a colon ask for. Further words do not
matter. -/
inductive Command.Means : List String → Command → Prop
  | top {more : List String} : Means ("top" :: more) (.activate .top)
  | bottom {more : List String} : Means ("bottom" :: more) (.activate .bottom)
  /-- The lower panel gives its value to the upper one. -/
  | up {more : List String} : Means ("up" :: more) (.transfer .bottom .top)
  | down {more : List String} : Means ("down" :: more) (.transfer .top .bottom)
  | back {more : List String} : Means ("back" :: more) (.act .backspace)
  | clear {more : List String} : Means ("clear" :: more) (.act .clear)
  | eval {more : List String} : Means ("eval" :: more) (.act .evaluate)
  | set {key value : String} {more : List String} :
      Means ("set" :: key :: value :: more) (.set key value)
  /-- A key and a value are missing. -/
  | setNothing : Means ["set"] .incompleteSet
  /-- A value is missing. -/
  | setKey {key : String} : Means ["set", key] .incompleteSet
  | redraw {more : List String} : Means ("show" :: more) .redraw
  | help {more : List String} : Means ("help" :: more) .help
  | quit {name : String} {more : List String} : name ∈ farewells → Means (name :: more) .quit
  /-- A colon stands alone. -/
  | nothing : Means [] (.unknown "")
  | unknown {name : String} {more : List String} : name ∉ names →
      Means (name :: more) (.unknown name)

/-- A word is taken for the command that has its name. -/
theorem Command.means_ofWords (name : String) (more : List String) :
    Means (name :: more) (ofWords name more) := by
  unfold ofWords
  split
  case isTrue named => exact named ▸ .top
  split
  case isTrue named => exact named ▸ .bottom
  split
  case isTrue named => exact named ▸ .up
  split
  case isTrue named => exact named ▸ .down
  split
  case isTrue named => exact named ▸ .back
  split
  case isTrue named => exact named ▸ .clear
  split
  case isTrue named => exact named ▸ .eval
  split
  case isTrue named =>
    subst named
    match more with
    | [] => exact .setNothing
    | [key] => exact .setKey
    | key :: value :: more => exact .set
  split
  case isTrue named => exact named ▸ .redraw
  split
  case isTrue named => exact named ▸ .help
  split
  case isTrue named => exact .quit (by simpa [farewells, or_assoc] using named)
  case isFalse => exact .unknown (by simp_all [names, farewells])

theorem Command.parse_eq_iff {text : String} {command : Command} :
    parse text = command ↔ Means (Text.words text) command := by
  unfold parse
  generalize Text.words text = words
  constructor
  · rintro rfl
    cases words with
    | nil => exact .nothing
    | cons name more => exact means_ofWords name more
  · intro means
    cases means with
    | quit isFarewell =>
        simp only [farewells, List.mem_cons, List.not_mem_nil, or_false] at isFarewell
        obtain rfl | rfl | rfl := isFarewell <;> rfl
    | unknown noName => simp_all [names, farewells, ofWords]
    | _ => rfl

/-! ## Lines -/

/-- `Line.Means bytes line` says what the bytes of a line stand for: a text with a colon in front is
a command, any other one consists of keys. White space around the text does not matter. -/
inductive Line.Means (bytes : List UInt8) : Line → Prop
  | command {text : String} {rest : List Char} {command : Command} :
      Text.decode? bytes = some text → (Text.trim text).toList = ':' :: rest →
      Command.Means (Text.words (String.ofList rest)) command → Means bytes (.command command)
  | keys {text : String} {strokes : List Stroke} :
      Text.decode? bytes = some text → (∀ rest, (Text.trim text).toList ≠ ':' :: rest) →
      List.Forall₂ Stroke.Means (Text.trim text).toList strokes → Means bytes (.keys strokes)

/-- A text is taken for the line that it means. -/
theorem Line.parse_eq_iff {text : String} {bytes : List UInt8} {line : Line}
    (decoded : Text.decode? bytes = some text) : parse text = line ↔ Means bytes line := by
  unfold parse
  constructor
  · rintro rfl
    split
    case h_1 rest colon => exact .command decoded colon (Command.parse_eq_iff.mp rfl)
    case h_2 noColon =>
      refine .keys decoded noColon ?_
      rw [List.forall₂_map_right_iff, List.forall₂_same]
      intro char _
      exact Stroke.means_ofChar char
  · intro means
    cases means with
    | command read colon means =>
        cases decoded.symm.trans read
        simp only [colon]
        rw [Command.parse_eq_iff.mpr means]
    | keys read noColon means =>
        cases decoded.symm.trans read
        split
        case h_1 rest colon => exact absurd colon (noColon rest)
        case h_2 =>
          have strokesMeant : List.Forall₂ Eq ((Text.trim text).toList.map Stroke.ofChar) _ :=
            List.forall₂_map_left_iff.mpr (means.imp fun _ _ => Stroke.ofChar_eq_iff.mpr)
          rw [List.forall₂_eq_eq_eq] at strokesMeant
          rw [strokesMeant]

theorem Line.ofBytes?_eq_some_iff {bytes : List UInt8} {line : Line} :
    ofBytes? bytes = some line ↔ Means bytes line := by
  unfold ofBytes?
  cases decoded : Text.decode? bytes with
  | none =>
      constructor
      · intro impossible
        cases impossible
      · rintro (⟨read, _, _⟩ | ⟨read, _, _⟩) <;> cases decoded.symm.trans read
  | some text =>
      rw [Option.map_some, Option.some.injEq]
      exact parse_eq_iff decoded

/-! ## Farewells -/

/-- `IsFarewell bytes` says that bytes are a text with a colon in front whose first word is one of
three. White space around the text and further words do not matter. -/
def IsFarewell (bytes : List UInt8) : Prop :=
  ∃ text command name arguments, Text.decode? bytes = some text ∧
    (Text.trim text).toList = ':' :: command ∧
    Text.words (String.ofList command) = name :: arguments ∧ name ∈ ["quit", "q", "exit"]

theorem isFarewell_iff_means_quit {bytes : List UInt8} :
    IsFarewell bytes ↔ Line.Means bytes (.command .quit) := by
  constructor
  · rintro ⟨text, rest, name, more, decoded, colon, words, named⟩
    exact .command decoded colon (words ▸ .quit named)
  · intro means
    cases means with
    | @command text rest _ decoded colon means =>
        generalize shape : Text.words (String.ofList rest) = words at means
        cases means with
        | quit named => exact ⟨text, rest, _, _, decoded, colon, shape, named⟩

theorem Line.quits_iff {line : Line} : line.quits = true ↔ line = .command .quit := by
  unfold quits
  split <;> simp_all

/-- Only a farewell ends the session. -/
theorem endsSession_iff (bytes : List UInt8) : endsSession bytes = true ↔ IsFarewell bytes := by
  rw [isFarewell_iff_means_quit, ← Line.ofBytes?_eq_some_iff, endsSession]
  simp [Option.any_eq_true, Line.quits_iff]

theorem quits_parse_iff {text : String} {bytes : List UInt8}
    (decoded : Text.decode? bytes = some text) :
    (Line.parse text).quits = true ↔ IsFarewell bytes := by
  rw [Line.quits_iff, isFarewell_iff_means_quit, Line.parse_eq_iff decoded]

/-! ## Scripts -/

/-- `Line.Heard pieces lines` says that lines are what the pieces of a script stand for, up to the
first farewell. -/
inductive Line.Heard : List (List UInt8) → List Line → Prop
  | none : Heard [] []
  | farewell {bytes : List UInt8} {line : Line} {others : List (List UInt8)} :
      Means bytes line → IsFarewell bytes → Heard (bytes :: others) [line]
  | onward {bytes : List UInt8} {line : Line} {others : List (List UInt8)} {later : List Line} :
      Means bytes line → ¬IsFarewell bytes → Heard others later →
        Heard (bytes :: others) (line :: later)

/-- A script that is not garbled is heard, and no other one. -/
theorem Line.heard_iff {pieces : List (List UInt8)} {lines : List Line} :
    Heard pieces lines ↔ ¬Garbled pieces ∧ lines = upToQuit (pieces.filterMap ofBytes?) := by
  constructor
  · intro heard
    induction heard with
    | none => exact ⟨by simp [Garbled], rfl⟩
    | @farewell bytes line others means isFarewell =>
        have read := ofBytes?_eq_some_iff.mpr means
        obtain ⟨text, decoded, rfl⟩ := Option.map_eq_some_iff.mp read
        have quits := (quits_parse_iff decoded).mpr isFarewell
        rw [garbled_cons_of_decode decoded, List.filterMap_cons_some read, upToQuit, if_pos quits]
        simp [quits]
    | @onward bytes line others later means noFarewell _ recurse =>
        have read := ofBytes?_eq_some_iff.mpr means
        obtain ⟨text, decoded, rfl⟩ := Option.map_eq_some_iff.mp read
        have goesOn := mt (quits_parse_iff decoded).mp noFarewell
        rw [garbled_cons_of_decode decoded, List.filterMap_cons_some read, upToQuit, if_neg goesOn,
          ← recurse.2]
        exact ⟨fun garbled => recurse.1 garbled.2, rfl⟩
  · rintro ⟨intact, rfl⟩
    induction pieces with
    | nil => exact .none
    | cons bytes others recurse =>
        cases decoded : Text.decode? bytes with
        | none => exact absurd (garbled_cons_of_undecodable decoded others) intact
        | some text =>
            have read := ofBytes?_of_decode decoded
            have means := ofBytes?_eq_some_iff.mp read
            rw [garbled_cons_of_decode decoded, not_and] at intact
            rw [List.filterMap_cons_some read, upToQuit]
            by_cases quits : (parse text).quits = true
            · rw [if_pos quits]
              exact .farewell means ((quits_parse_iff decoded).mp quits)
            · rw [if_neg quits]
              exact .onward means (mt (quits_parse_iff decoded).mpr quits)
                (recurse (intact (Bool.eq_false_iff.mpr quits)))

/-- A script is garbled just when a line is no text and no farewell stands before it. -/
theorem garbled_iff {pieces : List (List UInt8)} :
    Garbled pieces ↔
      ∃ before bytes behind, pieces = before ++ bytes :: behind ∧
        (∀ earlier ∈ before, ¬IsFarewell earlier) ∧ Text.decode? bytes = none := by
  constructor
  · rintro ⟨bytes, member, undecodable⟩
    obtain ⟨before, between, split⟩ := List.append_of_mem member
    refine ⟨before, bytes, between ++ pieces.dropWhile (!endsSession ·), ?_, ?_, undecodable⟩
    · rw [← List.cons_append, ← List.append_assoc, ← split, List.takeWhile_append_dropWhile]
    · intro earlier isEarlier isFarewell
      have inFront : earlier ∈ pieces.takeWhile (!endsSession ·) := by
        rw [split]
        exact List.mem_append_left _ isEarlier
      have goesOn := List.mem_takeWhile_imp inFront
      rw [(endsSession_iff earlier).mpr isFarewell] at goesOn
      cases goesOn
  · rintro ⟨before, bytes, behind, rfl, noFarewell, undecodable⟩
    refine ⟨bytes, ?_, undecodable⟩
    have goesOn : ∀ earlier ∈ before, (!endsSession earlier) = true := by
      intro earlier isEarlier
      simpa using mt (endsSession_iff earlier).mp (noFarewell earlier isEarlier)
    have unended : endsSession bytes = false := by
      simp [endsSession, Line.ofBytes?, undecodable]
    rw [List.takeWhile_append_of_pos goesOn, List.takeWhile_cons_of_pos (by simp [unended])]
    exact List.mem_append_right before List.mem_cons_self

end PanelCalc.Session
