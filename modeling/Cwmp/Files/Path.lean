import Cwmp.Text.CommaList

/-! # Paths

A path is a text whose parts are separated by slashes. What it leads to is decided where it is
followed; here is only what its text shows.
-/
namespace Cwmp.Path

open Text

/-- The parts of a path. A slash at the end has an empty part after it. -/
def parts (path : String) : List String :=
  (splitAt '/' path.toList).map String.ofList

def isAbsolute (path : String) : Bool :=
  path.toList.head? == some '/'

/-- A part that leads from a folder to that folder. -/
def isStay (part : String) : Bool :=
  part == "" || part == "."

/-- The parts that lead somewhere. -/
def moves (path : String) : List String :=
  (parts path).filter fun part => !isStay part

/-- What follows the last dot of a file's name, if something stands before that dot. -/
def extensionOf (name : List Char) : Option String :=
  match (splitAt '.' name).reverse with
  | last :: before => if before = [] ∨ before = [[]] then none else some (String.ofList last)
  | [] => none

def extension? (path : String) : Option String :=
  match (moves path).getLast? with
  | some name => if name = ".." then none else extensionOf name.toList
  | none => none

end Cwmp.Path
