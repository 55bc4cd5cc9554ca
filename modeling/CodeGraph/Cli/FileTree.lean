/-
# File trees

What a command line can read from, as a value: directories in directories, down to files. A path is
followed name by name from a location, and `Location.read` gives the file at its end. A file has
nothing below it, not even the empty name behind a final slash.
-/
import CodeGraph.Fault

namespace CodeGraph.Cli

/-- A file with its bytes, or a directory with its entries by name. -/
inductive FileTree
  | file (content : List UInt8)
  | directory (entries : List (String × FileTree))

/-- A location in a tree: what is there, and the directories around it, innermost first. -/
structure Location where
  here : FileTree
  around : List FileTree := []

namespace Location

/-- The root of the tree. -/
def root (location : Location) : Location := { here := location.around.getLastD location.here }

/-- The longest name an entry can have, in bytes. -/
def maxName : Nat := 255

/-- The longest path that can be followed, in bytes. -/
def maxPath : Nat := 4095

/-- Goes up to the directory around. The root is its own parent. -/
def up (location : Location) : Location :=
  match location.around with
  | [] => location
  | parent :: around => { here := parent, around }

/-- Follows one name of a path. The empty name and a dot stay, two dots go up. -/
def step (location : Location) (name : String) : Except IoFault Location :=
  match location.here with
  | .file _ => .error .notDirectory
  | .directory entries =>
    if name = "" || name = "." then .ok location
    else if name = ".." then .ok location.up
    else if maxName < name.utf8ByteSize then .error .nameTooLong
    else
      match entries.lookup name with
      | some here => .ok { here, around := location.here :: location.around }
      | none => .error .notFound

/-- Follows a path, from the root if it starts with a slash. The empty path leads nowhere. -/
def follow (location : Location) (path : String) : Except IoFault Location :=
  if path = "" then .error .notFound
  else if maxPath < path.utf8ByteSize then .error .nameTooLong
  else
    let start := if path.toList.head? == some '/' then location.root else location
    (path.splitOn "/").foldlM step start

/-- Reads the file at the end of a path. -/
def read (location : Location) (path : String) : Except IoFault (List UInt8) := do
  match (← location.follow path).here with
  | .file content => .ok content
  | .directory _ => .error .isDirectory

end Location

end CodeGraph.Cli
