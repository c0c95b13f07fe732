import PanelCalc.Proofs.CommandLine.Arguments
import PanelCalc.Proofs.CommandLine.Runs
import PanelCalc.Proofs.Session.Keys
import PanelCalc.Widget

/-!
# One verdict on every expression

The command line computes the text it is given. A session takes a line apart into keys, and a widget
is given one key after another; both put the text together again on a panel before it is evaluated.
`front_ends_agree` says that all three come to the same `Verdict`.
-/

namespace PanelCalc

/-- What comes of an expression: the status and the output of the program that computes it, and the
panel on which it has been evaluated. -/
structure Verdict where
  status : Nat
  printed : String
  panel : Panel
  deriving DecidableEq, Repr

/-- The verdict on an expression. -/
def Verdict.of (expression : String) : Verdict :=
  match Formula.value expression with
  | .ok value =>
      ⟨0, Decimal.display value ++ "\n", .showing expression (Decimal.display value)⟩
  | .error _ => ⟨1, errorText ++ "\n", { expression, error := some errorText }⟩

/-- Evaluating an expression that has been typed leaves the panel of its verdict. -/
theorem Panel.evaluate_editing (expression : String) :
    (editing expression).evaluate = (Verdict.of expression).panel := by
  unfold evaluate Verdict.of
  simp only [editing, shown, Formula.shown]
  cases Formula.value expression <;> rfl

/-! ## The command line -/

namespace CommandLine

theorem computeOnce_eq (expression : String) :
    computeOnce expression =
      ((Verdict.of expression).status, (Verdict.of expression).printed) := by
  unfold computeOnce Verdict.of Formula.shown
  cases Formula.value expression <;> rfl

/-- A request to compute an expression touches no file, and does not look at the script. -/
theorem run_of_verdict [Parser] [Directories] [Json.Package] {arguments : List String}
    {request : Request} {expression : String}
    (asks : Parser.read? arguments = some (.perform request))
    (given : request.expression = some expression) (environment : Environment) (tree : FileTree)
    (script : List UInt8) :
    run environment tree arguments script =
      ⟨(Verdict.of expression).status, Text.encode (Verdict.of expression).printed, tree⟩ := by
  rw [run_of_expression asks given, computeOnce_eq]
  simp [Sink.write]

end CommandLine

/-! ## The widget -/

namespace Widget

/-- Presses keys one after another. -/
def pressAll (panel : String) (keys : List String) (widget : Widget) : Except Fault Widget :=
  keys.foldlM (fun widget key => (widget.press panel key).map Prod.snd) widget

/-- Keys that all do something act on the panel one after another. -/
theorem pressAll_eq_ok {name : String} {id : PanelId} (named : PanelId.ofName name = .ok id)
    {keys : List String} {actions : List Panel.Action}
    (mapped : keys.map Keypad.action? = actions.map some) (widget : Widget) :
    widget.pressAll name keys = .ok ⟨widget.calculator.run (actions.map (.panel id))⟩ := by
  induction keys generalizing actions widget with
  | nil =>
      cases actions with
      | nil => rfl
      | cons action later => cases mapped
  | cons key others recurse =>
      cases actions with
      | nil => cases mapped
      | cons action later =>
          rw [List.map_cons, List.map_cons, List.cons.injEq] at mapped
          have pressed : (widget.press name key).map Prod.snd =
              .ok ⟨widget.calculator.after (.panel id action)⟩ := by
            simp only [press, mapped.1, act, named]
            rfl
          unfold pressAll
          rw [List.foldlM_cons, pressed]
          exact recurse mapped.2 _

/-- The keys of an expression, followed by one that evaluates, put it into an empty panel and
evaluate it there. -/
theorem pressAll_of_plain {expression : String}
    (isPlain : ∀ char ∈ expression.toList, char ∈ Keypad.plain) {name last : String} {id : PanelId}
    (named : PanelId.ofName name = .ok id) (evaluates : last = "=" ∨ last = "Enter")
    {widget : Widget} (empty : widget.calculator.panel id = {}) :
    widget.pressAll name (expression.toList.map Char.toString ++ [last]) =
      .ok ⟨widget.calculator.setPanel id (Panel.editing expression).evaluate⟩ := by
  let typed : List Panel.Action := expression.toList.map (.type ·.toString)
  have types : List.Forall₂ Panel.Types typed expression.toList := by
    rw [List.forall₂_map_left_iff, List.forall₂_same]
    exact fun char member => (Keypad.types_plain (isPlain char member)).2
  have typing : (expression.toList.map Char.toString).map Keypad.action? = typed.map some := by
    rw [List.map_map, List.map_map]
    exact List.map_congr_left fun char member => (Keypad.types_plain (isPlain char member)).1
  have mapped : (expression.toList.map Char.toString ++ [last]).map Keypad.action? =
      (typed ++ [Panel.Action.evaluate]).map some := by
    rw [List.map_append, List.map_append, typing]
    rcases evaluates with rfl | rfl <;> rfl
  rw [pressAll_eq_ok named mapped, Calculator.run_panel, empty,
    Panel.foldl_after_types_evaluate types]

end Widget

/-- The command line, a session and a widget come to one verdict on every expression without blanks.
The command line prints it, whatever else it is asked and in whatever way it is given the
expression. The others show it on a panel that was empty before, and change nothing else: a session
for every line that writes the expression, a widget for the row of its keys. -/
theorem front_ends_agree [CommandLine.Parser] [Directories] [Json.Package] {expression : String}
    (isPlain : ∀ char ∈ expression.toList, char ∈ Keypad.plain) :
    ((CommandLine.Parser.Conforms →
        CommandLine.Parser.read? ["--eval=" ++ expression] =
          some (.perform { expression := some expression })) ∧
      ∀ {arguments : List String} {request : CommandLine.Request},
        CommandLine.Parser.read? arguments = some (.perform request) →
          request.expression = some expression → ∀ environment tree script,
            CommandLine.run environment tree arguments script =
              ⟨(Verdict.of expression).status, Text.encode (Verdict.of expression).printed, tree⟩) ∧
    (∀ {session : Session} {line : String},
      session.calculator.panel session.active = {} → Session.Writes line expression →
        Session.enter line session = .ok true { session with
          calculator := session.calculator.setPanel session.active
            (Verdict.of expression).panel }) ∧
    ∀ {widget : Widget} {name last : String} {id : PanelId},
      widget.calculator.panel id = {} → PanelId.ofName name = .ok id →
        last = "=" ∨ last = "Enter" →
          widget.pressAll name (expression.toList.map Char.toString ++ [last]) =
            .ok ⟨widget.calculator.setPanel id (Verdict.of expression).panel⟩ := by
  rw [← Panel.evaluate_editing]
  refine ⟨⟨fun conforms => ?_, ?_⟩, ?_, ?_⟩
  · have filled : CommandLine.Request.putAll? {} [(.expression, expression)] =
        some { expression := some expression } := rfl
    exact conforms.performs filled
  · intro arguments request asks given environment tree script
    exact CommandLine.run_of_verdict asks given environment tree script
  · intro session line empty writes
    exact Session.enter_of_writes writes isPlain empty
  · intro widget name last id empty named evaluates
    exact Widget.pressAll_of_plain isPlain named evaluates empty

/-- A quotient on all three front ends; the line has other signs than the expression, and blanks. -/
theorem front_ends_agree_on_quotient :
    CommandLine.run {} {} ["--eval=6*(7-2)/4"] [] = ⟨0, Text.encode "7.5\n", {}⟩ ∧
      Session.enter "  6x(7-2) ÷ 4 = " { calculator := {} } = .ok true
        { calculator := { top := .showing "6*(7-2)/4" "7.5" } } ∧
      Widget.pressAll "Bottom" ["6", "*", "(", "7", "-", "2", ")", "/", "4", "Enter"] {} =
        .ok ⟨{ bottom := .showing "6*(7-2)/4" "7.5" }⟩ := by
  have plain : "6*(7-2)/4".toList.all (· ∈ Keypad.plain) := by decide
  have isPlain : ∀ char ∈ "6*(7-2)/4".toList, char ∈ Keypad.plain := fun char member =>
    of_decide_eq_true (List.all_eq_true.mp plain char member)
  have verdict : Verdict.of "6*(7-2)/4" = ⟨0, "7.5\n", .showing "6*(7-2)/4" "7.5"⟩ := by
    decide +kernel
  have writes : Session.Writes "  6x(7-2) ÷ 4 = " "6*(7-2)/4" := by
    refine ⟨"6x(7-2)÷4".toList, by decide, ?_⟩
    simp [Spells]
  obtain ⟨⟨asks, computes⟩, enters, presses⟩ := front_ends_agree isPlain
  rw [verdict] at computes enters presses
  exact ⟨computes (asks CommandLine.bundled_conforms) rfl {} {} [], enters rfl writes,
    @presses {} "Bottom" "Enter" .bottom rfl (by decide) (.inr rfl)⟩

end PanelCalc
