import PanelCalc.Text.Basic

/-!
# File trees

A small model of a file system without links: directories and regular files, found by paths. The
root is a directory that is always there, and relative paths start at it too.
-/

namespace PanelCalc

/-- The names that lead from the root to an entry. -/
abbrev FileTree.Place := List String

/-- What stands at a place. -/
inductive FileTree.Entry where
  | file (content : List UInt8)
  | directory
  deriving DecidableEq, Repr

/-- Files and directories, each at one place. -/
structure FileTree where
  entries : List (FileTree.Place × FileTree.Entry) := []
  deriving DecidableEq, Repr, Inhabited

namespace FileTree

/-- What a path leads to. -/
inductive Target where
  | directory
  | file (place : Place) (content : List UInt8)
  /-- Nothing, though its directory is there. -/
  | vacant (place : Place)
  /-- Nothing, for a directory on the way is missing. -/
  | missing
  /-- Nothing: a file stands on the way, or a name is too long. -/
  | blocked
  deriving DecidableEq, Repr

/-- How many bytes a name may have. -/
def longestName : Nat := 255

/-- How many bytes a path may have. -/
def longestPath : Nat := 4095

/-- The entry at a place. -/
def entry? (tree : FileTree) (place : Place) : Option Entry :=
  if place = [] then some .directory else tree.entries.lookup place

/-- The tree with an entry put at a place. -/
def put (tree : FileTree) (place : Place) (entry : Entry) : FileTree :=
  { entries := (place, entry) :: tree.entries.filter fun other => other.1 ≠ place }

/-- The names on a path. A name is empty where two slashes meet and behind the last one. -/
def namesOf (path : String) : List String :=
  (Text.pieces (· == '/') path.toList).map String.ofList

/-- Whether a name stands for the directory it is in. -/
def isHere (name : String) : Bool := name = "" || name = "."

/-- Follows names from a directory. -/
def follow (tree : FileTree) (here : Place) : List String → Target
  | [] => .directory
  | name :: others =>
      if isHere name then follow tree here others
      else if name = ".." then follow tree here.dropLast others
      else if longestName < name.utf8ByteSize then .blocked
      else
        let place := here ++ [name]
        match tree.entry? place with
        | some .directory => follow tree place others
        | some (.file content) => if others = [] then .file place content else .blocked
        | none => if others = [] then .vacant place else .missing

/-- Whether a path can be looked up at all. -/
def isUsable (path : String) : Bool :=
  path.utf8ByteSize ≤ longestPath && !path.toList.contains '\x00'

/-- What a path leads to. -/
def target (tree : FileTree) (path : String) : Target :=
  if isUsable path then tree.follow [] (namesOf path) else .blocked

/-- Makes the directories that names lead through, from a directory on. Answers whether they are
there in the end; those made before a failure stay. -/
def makeDirectories (tree : FileTree) (here : Place) : List String → Bool × FileTree
  | [] => (true, tree)
  | name :: others =>
      if isHere name then makeDirectories tree here others
      else if name = ".." then makeDirectories tree here.dropLast others
      else if longestName < name.utf8ByteSize then (false, tree)
      else
        let place := here ++ [name]
        match tree.entry? place with
        | some .directory => makeDirectories tree place others
        | some (.file _) => (false, tree)
        | none => makeDirectories (tree.put place .directory) place others

/-- The path of the directory that a path leads into: what stands before the last name that leads
anywhere. It may be usable where the whole path is not. -/
def parent (path : String) : String :=
  let names := Text.dropEnd isHere (namesOf path)
  "/".intercalate (Text.dropEnd isHere names.dropLast)

/-- Makes the directory that a path leads into. -/
def makeParent (tree : FileTree) (path : String) : Bool × FileTree :=
  if isUsable (parent path) then tree.makeDirectories [] (namesOf (parent path))
  else (false, tree)

/-- Writes a file, in a directory that is there. Answers whether that was possible. -/
def write (tree : FileTree) (path : String) (content : List UInt8) : Bool × FileTree :=
  match tree.target path with
  | .file place _ => (true, tree.put place (.file content))
  | .vacant place => (true, tree.put place (.file content))
  | .directory | .missing | .blocked => (false, tree)

/-- The files of a tree with their paths from the root, in the order of the paths. -/
def files (tree : FileTree) : List (String × List UInt8) :=
  (tree.entries.filterMap fun
    | (place, .file content) => some ("/".intercalate place, content)
    | (_, .directory) => none).mergeSort fun first second => first.1 ≤ second.1

end FileTree
end PanelCalc
