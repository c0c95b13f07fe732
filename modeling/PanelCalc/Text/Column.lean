/-!
# Columns

Texts widened by blanks to a given number of characters. A text that is wider already is kept
whole.
-/

namespace PanelCalc.Text

/-- Where in its column a text stands. -/
inductive Alignment where
  | left
  | centre
  | right
  deriving DecidableEq, Repr

/-- How many of the spare blanks go before the text. An odd one in the centre goes behind it. -/
def Alignment.before (alignment : Alignment) (spare : Nat) : Nat :=
  match alignment with
  | left => 0
  | centre => spare / 2
  | right => spare

/-- A text in a column of `width` characters. -/
def column (alignment : Alignment) (width : Nat) (text : String) : String :=
  let spare := width - text.length
  let before := alignment.before spare
  String.ofList (List.replicate before ' ' ++ text.toList ++ List.replicate (spare - before) ' ')

end PanelCalc.Text
