import PanelCalc.CommandLine.Arguments

/-!
# What parsers of command lines do

A parser is taken as it is. What is asked of it, `Parser.Conforms`, is that options can be given by
their long names in any order, with their values behind equals signs. The bundled parser does that.
-/

namespace PanelCalc.CommandLine

/-- The request that options and their values fill in, one after another. -/
def Request.putAll? (request : Request) : List (Flag × String) → Option Request
  | [] => some request
  | (flag, value) :: others => (request.put? flag value).bind (·.putAll? others)

/-- An option and its value in one argument. -/
def Flag.argument (flag : Flag) (value : String) : String := "--" ++ flag.name ++ "=" ++ value

/-- What is asked of a parser: options with values that they can have ask for the request that they
fill in. -/
structure Parser.Conforms [Parser] : Prop where
  performs : ∀ {given : List (Flag × String)} {request : Request},
    Request.putAll? {} given = some request →
      read? (given.map fun option => option.1.argument option.2) = some (.perform request)

/-! ## The bundled parser -/

theorem toList_argument (flag : Flag) (value : String) :
    (flag.argument value).toList = '-' :: '-' :: (flag.name.toList ++ '=' :: value.toList) := by
  simp [Flag.argument, String.toList_append]

theorem cutAtEquals_append {name : List Char} (plain : '=' ∉ name) (value : List Char) :
    cutAtEquals (name ++ '=' :: value) = (name, some value) := by
  have all : ∀ char ∈ name, decide (char ≠ '=') = true := by
    rintro char member
    exact decide_eq_true (ne_of_mem_of_not_mem member plain)
  simp only [cutAtEquals, List.dropWhile_append_of_pos all, List.takeWhile_append_of_pos all]
  simp

theorem option?_argument (flag : Flag) (value : String) :
    option? (flag.argument value) = some (flag, some value) := by
  have plain : '=' ∉ flag.name.toList := by cases flag <;> decide
  have named : Flag.ofName? flag.name = some flag := by cases flag <;> rfl
  rw [option?, toList_argument]
  simp [cutAtEquals_append plain, named]

/-- An option with its value asks for no notice: those have no equals sign. -/
theorem ofArgument?_argument (flag : Flag) (value : String) :
    Notice.ofArgument? (flag.argument value) = none := by
  have differs (notice : String) (plain : '=' ∉ notice.toList) : flag.argument value ≠ notice := by
    rintro rfl
    exact plain (by simp [toList_argument])
  rw [Notice.ofArgument?, toList_argument]
  simp [differs "--help" (by decide), differs "--version" (by decide)]

/-- An option with its value fills in that value. -/
theorem read?_argument {request filled : Request} {flag : Flag} {value : String}
    (fills : request.put? flag value = some filled) (others : List String) :
    read? request (flag.argument value :: others) = read? filled others := by
  rw [read?.eq_def request]
  split
  · rename_i impossible
    cases impossible
  · rename_i same
    have chars := congrArg String.toList (List.cons.inj same).1
    simp [toList_argument] at chars
  · rename_i same
    cases same
    simp only [ofArgument?_argument, option?_argument, fills]

theorem bundled_conforms : Parser.Conforms where
  performs {given request} filled := by
    change CommandLine.read? {} _ = _
    generalize ({} : Request) = before at filled
    induction given generalizing before with
    | nil => cases filled; rfl
    | cons option others recurse =>
        obtain ⟨flag, value⟩ := option
        obtain ⟨next, put, rest⟩ := Option.bind_eq_some_iff.mp filled
        rw [List.map_cons, read?_argument put]
        exact recurse next rest

end PanelCalc.CommandLine
