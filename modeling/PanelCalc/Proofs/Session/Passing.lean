import PanelCalc.Proofs.Session.Performance

/-!
# What a session passes through

Between its beginning and its end a session on a sink without end passes through other sessions: one
behind every command, every key and every line that it takes. `Session.exists_passes_iff` says that
their calculators are those through which the actions of its lines lead.
-/

namespace PanelCalc

namespace Calculator

variable {calculator reached : Calculator}

/-- `calculator.Passes actions reached` says that actions lead a calculator through another one. -/
def Passes (calculator : Calculator) (actions : List Action) (reached : Calculator) : Prop :=
  ∃ taken, taken <+: actions ∧ reached = calculator.run taken

theorem passes_start (calculator : Calculator) (actions : List Action) :
    calculator.Passes actions calculator :=
  ⟨[], List.nil_prefix, rfl⟩

theorem passes_end (calculator : Calculator) (actions : List Action) :
    calculator.Passes actions (calculator.run actions) :=
  ⟨actions, List.prefix_rfl, rfl⟩

theorem passes_nil_iff : calculator.Passes [] reached ↔ reached = calculator := by
  simp [Passes]

/-- One action leads nowhere but to its end. -/
theorem passes_toList_iff {action : Option Action} :
    calculator.Passes action.toList reached ↔
      reached = calculator ∨ reached = calculator.run action.toList := by
  constructor
  · rintro ⟨taken, beginning, rfl⟩
    cases action with
    | none => simp_all
    | some action =>
        simp only [Option.toList_some, List.prefix_cons_iff, List.prefix_nil] at beginning
        obtain rfl | ⟨_, rfl, rfl⟩ := beginning
        · exact .inl rfl
        · exact .inr rfl
  · rintro (rfl | rfl)
    · exact passes_start _ _
    · exact passes_end _ _

/-- Actions in a row lead through what the first ones lead through, and on from there. -/
theorem passes_append_iff {first second : List Action} :
    calculator.Passes (first ++ second) reached ↔
      calculator.Passes first reached ∨ (calculator.run first).Passes second reached := by
  constructor
  · rintro ⟨taken, beginning, rfl⟩
    rcases List.prefix_or_prefix_of_prefix beginning (List.prefix_append first second) with
      inFirst | ⟨others, rfl⟩
    · exact .inl ⟨taken, inFirst, rfl⟩
    · exact .inr ⟨others, (List.prefix_append_right_inj first).mp beginning, run_append _ _ _⟩
  · rintro (⟨taken, inFirst, rfl⟩ | ⟨taken, inSecond, rfl⟩)
    · exact ⟨taken, inFirst.trans (List.prefix_append first second), rfl⟩
    · exact ⟨first ++ taken, (List.prefix_append_right_inj first).mpr inSecond,
        (run_append _ _ _).symm⟩

end Calculator

namespace Session

/-- `Line.Passes line before middle` says that a session comes from `before` to `middle` while it
takes a line. -/
inductive Line.Passes : Line → Session → Session → Prop
  | start {line : Line} {before : Session} : Passes line before before
  | obeyed {command : Command} {before : Session} :
      Passes (.command command) before (left (obey command before))
  | typed {strokes taken : List Stroke} {before : Session} : taken <+: strokes →
      Passes (.keys strokes) before (left (taken.forM stroke before))

/-- `Passes lines before middle` says that a session comes from `before` to `middle` while it reads
lines. -/
inductive Passes : List (List UInt8) → Session → Session → Prop
  | here {lines : List (List UInt8)} {before : Session} : Passes lines before before
  | within {bytes : List UInt8} {others : List (List UInt8)} {before middle : Session}
      {text : String} : Text.decode? bytes = some text →
      (Line.parse text).Passes (left (countLine before)) middle →
      Passes (bytes :: others) before middle
  | onward {bytes : List UInt8} {others : List (List UInt8)} {before next middle : Session} :
      readLine bytes before = .ok true next → Passes others next middle →
      Passes (bytes :: others) before middle

/-- What a step performs on a sink without end leads the calculator through its actions. -/
theorem Performs.calculator_left {Value : Type} {step : Step Value} {before after : Session}
    {given : Except Fault Value} {output : List UInt8} {actions : List Action}
    (performs : Performs step before given after output actions) :
    (left (step (before.within none))).calculator = before.calculator.run actions := by
  rw [performs.endless, left_ending]
  exact performs.calculator

/-- A line leads the calculator through its actions. -/
theorem Line.exists_passes_iff {line : Line} {before : Session} {reached : Calculator} :
    (∃ middle, line.Passes (before.within none) middle ∧ middle.calculator = reached) ↔
      before.calculator.Passes (line.actions before.active) reached := by
  constructor
  · rintro ⟨middle, passes, rfl⟩
    cases passes with
    | start => exact Calculator.passes_start _ _
    | @obeyed command =>
        obtain ⟨after, output, performs⟩ := performs_obey command before
        rw [performs.calculator_left]
        exact Calculator.passes_end _ _
    | @typed strokes taken _ beginning =>
        obtain ⟨after, output, performs, _⟩ := performs_strokes taken before
        rw [performs.calculator_left]
        exact ⟨_, (beginning.filterMap _).map _, rfl⟩
  · intro leads
    cases line with
    | command command =>
        rcases Calculator.passes_toList_iff.mp leads with rfl | rfl
        · exact ⟨_, .start, rfl⟩
        · obtain ⟨after, output, performs⟩ := performs_obey command before
          exact ⟨_, .obeyed, performs.calculator_left⟩
    | keys strokes =>
        obtain ⟨taken, beginning, rfl⟩ := leads
        obtain ⟨acts, mapped, rfl⟩ := List.prefix_map_iff.mp beginning
        obtain ⟨typed, inStrokes, rfl⟩ := List.prefix_filterMap_iff.mp mapped
        obtain ⟨after, output, performs, _⟩ := performs_strokes typed before
        exact ⟨_, .typed inStrokes, performs.calculator_left⟩

/-- A session that reads lines passes through what the first line leads it through and, if that one
does not end it, on from there. -/
theorem exists_passes_cons_iff {bytes : List UInt8} {text : String} {others : List (List UInt8)}
    {before next : Session} {output : List UInt8} {actions : List Action} {reached : Calculator}
    (decoded : Text.decode? bytes = some text)
    (reads : Performs (readLine bytes) before (.ok !(Line.parse text).quits) next output actions) :
    (∃ middle, Passes (bytes :: others) (before.within none) middle ∧
        middle.calculator = reached) ↔
      before.calculator.Passes ((Line.parse text).actions before.active) reached ∨
        (Line.parse text).quits = false ∧
          ∃ middle, Passes others (next.within none) middle ∧ middle.calculator = reached := by
  let counted : Session := { before with tally := before.tally.afterLine }
  rw [← @Line.exists_passes_iff _ counted]
  have endless := reads.endless
  constructor
  · rintro ⟨middle, passes, rfl⟩
    cases passes with
    | here => exact .inl ⟨_, .start, rfl⟩
    | within read inLine =>
        cases decoded.symm.trans read
        exact .inl ⟨middle, inLine, rfl⟩
    | onward done passes =>
        rw [endless] at done
        cases quits : (Line.parse text).quits <;> rw [quits] at done <;> cases done
        exact .inr ⟨rfl, middle, passes, rfl⟩
  · rintro (⟨middle, inLine, same⟩ | ⟨goesOn, middle, passes, same⟩)
    · exact ⟨middle, .within decoded inLine, same⟩
    · rw [goesOn] at endless
      exact ⟨middle, .onward endless passes, same⟩

/-- Lines lead the calculator through their actions, up to the line that ends the session or is no
text. -/
theorem exists_passes_iff {lines : List (List UInt8)} {before : Session} {reached : Calculator} :
    (∃ middle, Passes lines (before.within none) middle ∧ middle.calculator = reached) ↔
      before.calculator.Passes (Line.actionsOf before.active (Line.taken lines)) reached := by
  induction lines generalizing before with
  | nil =>
      rw [Line.taken, Line.actionsOf, Calculator.passes_nil_iff]
      constructor
      · rintro ⟨middle, passes, rfl⟩
        cases passes
        rfl
      · rintro rfl
        exact ⟨_, .here, rfl⟩
  | cons bytes others recurse =>
      cases decoded : Text.decode? bytes with
      | none =>
          rw [Line.taken_cons_of_undecodable decoded, Line.actionsOf, Calculator.passes_nil_iff]
          constructor
          · rintro ⟨middle, passes, rfl⟩
            cases passes with
            | here => rfl
            | within read _ => cases decoded.symm.trans read
            | onward done _ =>
                rw [readLine, decoded] at done
                cases done
          · rintro rfl
            exact ⟨_, .here, rfl⟩
      | some text =>
          obtain ⟨next, output, reads, activated⟩ := performs_readLine decoded before
          rw [exists_passes_cons_iff decoded reads, recurse, Line.taken_cons_of_decode decoded,
            Line.actionsOf, Calculator.passes_append_iff, ← reads.calculator, ← activated]
          cases quits : (Line.parse text).quits with
          | false => simp
          | true =>
              -- Behind a line that ends the session there is nothing but its end.
              simp only [Bool.true_eq_false, false_and, or_false, if_true, Line.actionsOf,
                Calculator.passes_nil_iff]
              constructor
              · exact .inl
              · rintro (inLine | rfl)
                · exact inLine
                · rw [reads.calculator]
                  exact Calculator.passes_end _ _

/-- A session passes through the calculators through which the actions of its script lead. -/
theorem exists_passes_run_iff {script : List UInt8} {calculator reached : Calculator} :
    (∃ middle, Passes (Text.lines script) (left (ask { calculator })) middle ∧
        middle.calculator = reached) ↔
      calculator.Passes (Line.actionsOf .top (Line.taken (Text.lines script))) reached := by
  obtain ⟨opened, question, asks⟩ := performs_ask { calculator }
  have sameActive : opened.active = .top := congrArg Standing.active (leaves_ask _ _ _ asks.endless)
  have sameCalculator : opened.calculator = calculator := asks.calculator
  have opens : left (ask { calculator }) = opened.within none := by
    have endless : ask { calculator } = _ := asks.endless
    rw [endless]
    rfl
  rw [opens, exists_passes_iff, sameActive, sameCalculator]

end Session
end PanelCalc
