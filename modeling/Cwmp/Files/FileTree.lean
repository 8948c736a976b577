import Cwmp.Files.Path

/-! # File trees

The files and folders below a root. What stands in a tree is told by its position, which is the
names on the way to it from the root. The parts of a path lead from one position to another; the
root is its own parent, so that no path leads out of the tree.
-/
namespace Cwmp

inductive FileFault
  | missing
  | present
  | notFolder
  | isFolder
  | nameTooLong
  | zeroByte
  | other (text : String)
deriving DecidableEq, Repr

namespace FileFault

def message : FileFault → String
  | missing => "No such file or directory (os error 2)"
  | present => "File exists (os error 17)"
  | notFolder => "Not a directory (os error 20)"
  | isFolder => "Is a directory (os error 21)"
  | nameTooLong => "File name too long (os error 36)"
  | zeroByte => "file name contained an unexpected NUL byte"
  | other text => text

end FileFault

/-- A file with its text, or a folder with its entries, each name once. -/
inductive FileTree
  | file (text : String)
  | folder (entries : List (String × FileTree))
deriving Inhabited

namespace FileTree

def empty : FileTree :=
  .folder []

/-- What stands at a position. -/
def node? (t : FileTree) : List String → Option FileTree
  | [] => some t
  | name :: names =>
    match t with
    | file _ => none
    | folder entries => (entries.lookup name).bind fun inner => inner.node? names

/-- An entry in the place of one of the same name, or else at the end. -/
def setEntry (entries : List (String × FileTree)) (name : String) (new : FileTree) :
    List (String × FileTree) :=
  if entries.any fun e => e.1 == name then
    entries.map fun e => if e.1 = name then (name, new) else e
  else entries ++ [(name, new)]

/-- Puts something at a position inside folders that exist. -/
def put (t : FileTree) (new : FileTree) : List String → FileTree
  | [] => new
  | name :: names =>
    match t with
    | file text => file text
    | folder entries =>
      folder (setEntry entries name (put ((entries.lookup name).getD empty) new names))

def maxNameLength : Nat := 255

/-- The position to which parts of a path lead from a position. -/
def follow (t : FileTree) (position : List String) : List String → Except FileFault (List String)
  | [] => .ok position
  | part :: rest =>
    match t.node? position with
    | some (folder entries) =>
      if Path.isStay part then t.follow position rest
      else if part = ".." then t.follow position.dropLast rest
      else if maxNameLength < part.utf8ByteSize then .error .nameTooLong
      else if (entries.lookup part).isSome then t.follow (position ++ [part]) rest
      else .error .missing
    | some (file _) => .error .notFolder
    | none => .error .missing

/-- Makes the folders that are missing on the way along some parts of a path. -/
def makeFolders (t : FileTree) (position : List String) :
    List String → Except FileFault FileTree
  | [] => .ok t
  | part :: rest =>
    if part = ".." then t.makeFolders position.dropLast rest
    else if maxNameLength < part.utf8ByteSize then .error .nameTooLong
    else
      let inner := position ++ [part]
      match t.node? inner with
      | some (folder _) => t.makeFolders inner rest
      | some (file _) => .error (if rest = [] then .present else .notFolder)
      | none => (t.put empty inner).makeFolders inner rest

end FileTree
end Cwmp
