import Cwmp.Files.FileTree

/-! # Directories

A file tree with the folder in it that commands work in. A path that starts with a slash is followed
from the root of the tree, any other one from the working folder, which it may lead out of.
-/
namespace Cwmp

structure Directory where
  root : FileTree
  /-- The position of the folder that commands work in. -/
  working : List String
deriving Inhabited

namespace Directory

/-- No files at all, so that the root is the folder to work in. -/
def empty : Directory where
  root := .empty
  working := []

/-- The position from which a path is followed. -/
def start (d : Directory) (path : String) : List String :=
  if Path.isAbsolute path then [] else d.working

/-- How many bytes a path can have. -/
def maxPathLength : Nat := 4095

/-- Refuses what leads nowhere in any directory. -/
def checkPath (path : String) : Except FileFault Unit :=
  if path.toList.contains '\x00' then .error .zeroByte
  else if path = "" then .error .missing
  else if maxPathLength < path.utf8ByteSize then .error .nameTooLong
  else .ok ()

/-- The position to which a path leads. -/
def find (d : Directory) (path : String) : Except FileFault (List String) := do
  checkPath path
  d.root.follow (d.start path) (Path.parts path)

def contains (d : Directory) (path : String) : Bool :=
  match d.find path with
  | .ok _ => true
  | .error _ => false

def read (d : Directory) (path : String) : Except FileFault String := do
  match d.root.node? (← d.find path) with
  | some (.file text) => .ok text
  | some (.folder _) => .error .isFolder
  | none => .error .missing

/-- The parts of a path up to the last one that is not empty, and that one. -/
def lastPart? (path : String) : Option (List String × String) :=
  match (Path.parts path).reverse.dropWhile (· = "") with
  | name :: before => some (before.reverse, name)
  | [] => none

/-- Writes a file. The folder it stands in has to exist. -/
def write (d : Directory) (path text : String) : Except FileFault Directory := do
  checkPath path
  match lastPart? path with
  | none => .error .isFolder
  | some (before, name) =>
    let position ← d.root.follow (d.start path) before
    match d.root.node? position with
    | some (.folder entries) =>
      if Path.isStay name ∨ name = ".." ∨ (Path.parts path).getLast? = some "" then
        .error .isFolder
      else if FileTree.maxNameLength < name.utf8ByteSize then .error .nameTooLong
      else match entries.lookup name with
        | some (.folder _) => .error .isFolder
        | _ => .ok { d with root := d.root.put (.file text) (position ++ [name]) }
    | some (.file _) => .error .notFolder
    | none => .error .missing

/-- Makes the folders that are missing on the way to a file. -/
def makeParents (d : Directory) (path : String) : Except FileFault Directory := do
  let root ← d.root.makeFolders (d.start path) (Path.moves path).dropLast
  pure { d with root }

end Directory
end Cwmp
