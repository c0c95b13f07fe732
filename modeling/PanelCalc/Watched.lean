import PanelCalc.Calculator

/-!
# Watched calculators

A calculator together with observers that are told of every change. An observer acts on a world of
its own, of type `World`: it may log, draw or count. Observers are told in the order in which they
were registered, and only when the calculator differs from what it was.
-/

namespace PanelCalc

/-- A registered observer. -/
structure Observer (World : Type) where
  /-- The number under which it was registered. -/
  number : Nat
  /-- What it does when it is told of a changed calculator. -/
  told : Calculator → World → World

/-- A calculator and its observers. -/
structure Watched (World : Type) where
  calculator : Calculator
  /-- The registered observers, the earliest first. -/
  observers : List (Observer World) := []
  /-- The number of the next observer; no number is given out twice. -/
  nextNumber : Nat := 0

namespace Watched

variable {World : Type}

/-- Tells all observers of the calculator as it is. -/
def tell (watched : Watched World) (world : World) : World :=
  watched.observers.foldl (fun world observer => observer.told watched.calculator world) world

/-- Moves on to another calculator, of which the observers are told if it differs from the present
one. Answers whether it does. -/
def moveTo (watched : Watched World) (next : Calculator) (world : World) :
    Bool × Watched World × World :=
  if next = watched.calculator then (false, watched, world)
  else
    let moved := { watched with calculator := next }
    (true, moved, moved.tell world)

/-- Applies an action. Answers whether anything has changed, or why the action was refused. -/
def perform (watched : Watched World) (action : Action) (world : World) :
    Except Fault Bool × Watched World × World :=
  match watched.calculator.attempt action with
  | .error fault => (.error fault, watched, world)
  | .ok next =>
      let moved := watched.moveTo next world
      (.ok moved.1, moved.2)

/-- Replaces all settings. Answers whether they have changed. -/
def adopt (watched : Watched World) (settings : Settings) (world : World) :
    Bool × Watched World × World :=
  watched.moveTo { watched.calculator with settings } world

/-- Registers an observer, which learns its number. Answers that number too. -/
def register (watched : Watched World) (told : Nat → Calculator → World → World) :
    Nat × Watched World :=
  let number := watched.nextNumber
  (number,
    { watched with
      observers := watched.observers ++ [⟨number, told number⟩]
      nextNumber := number + 1 })

/-- Removes an observer. Answers whether it was registered. -/
def dismiss (watched : Watched World) (number : Nat) : Bool × Watched World :=
  (watched.observers.any fun observer => observer.number == number,
    { watched with
      observers := watched.observers.filter fun observer => observer.number != number })

end Watched
end PanelCalc
