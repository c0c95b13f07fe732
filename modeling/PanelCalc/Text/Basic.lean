/-!
# Text

Operations on texts and lists that know nothing of calculators.
-/

namespace PanelCalc.Text

/-- A list without its longest ending all of whose items satisfy `drop`. -/
def dropEnd {α : Type} (drop : α → Bool) (items : List α) : List α :=
  (items.reverse.dropWhile drop).reverse

/-- The pieces of a list between the items that satisfy `cut`, empty pieces included. -/
def pieces {α : Type} (cut : α → Bool) : List α → List (List α)
  | [] => [[]]
  | item :: rest =>
      if cut item then [] :: pieces cut rest
      else
        match pieces cut rest with
        | [] => [[item]]
        | piece :: others => (item :: piece) :: others

/-- A text without its last character. -/
def dropLast (text : String) : String := String.ofList text.toList.dropLast

/-- A text with the letters A to Z in lower case and every other character kept. -/
def lowerAscii (text : String) : String := String.ofList (text.toList.map Char.toLower)

end PanelCalc.Text
