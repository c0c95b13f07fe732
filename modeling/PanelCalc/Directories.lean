/-!
# Directories of a user

Where a program finds the directories that a user has for it. Which conventions hold for them is up
to a package; the bundled one follows the environment of the program.
-/

namespace PanelCalc

/-- A path below a directory. -/
def joinPath (directory name : String) : String :=
  match directory.toList.getLast? with
  | none | some '/' => directory ++ name
  | some _ => directory ++ "/" ++ name

/-- A package that knows the directories of a user. -/
class Directories where
  /-- The directory for settings, if there is one, for the home directory and the directory for
  settings that the environment names. -/
  config? (home configHome : Option String) : Option String

/-- The bundled package. The directory for settings is `configHome` if that is an absolute path,
otherwise `.config` below the home directory. -/
instance Directories.bundled : Directories where
  config? home configHome :=
    match configHome.filter fun path => path.toList.head? = some '/' with
    | some path => some path
    | none => (home.filter (· ≠ "")).map fun path => joinPath path ".config"

end PanelCalc
