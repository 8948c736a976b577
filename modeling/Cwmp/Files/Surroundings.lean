import Cwmp.Files.Directory

/-! # Surroundings

What a command needs of the place it runs in: files, and someone to ask before something is lost.
A directory is such a place, in which nobody is there to ask.
-/
namespace Cwmp

/-- A place in which commands run. -/
class Surroundings (m : Type → Type) where
  read : String → m (Except FileFault String)
  contains : String → m Bool
  write : String → String → m (Except FileFault Unit)
  /-- Makes the folders that a file is to stand in. -/
  makeParents : String → m (Except FileFault Unit)
  /-- The answer to a question, if somebody is there to ask. -/
  confirm? : String → m (Option Bool)

/-- A change of a directory that leaves it alone where it fails. -/
def Directory.attempt (change : Directory → Except FileFault Directory) :
    StateM Directory (Except FileFault Unit) :=
  fun d => match change d with
    | .ok d => (.ok (), d)
    | .error fault => (.error fault, d)

instance : Surroundings (StateM Directory) where
  read path := do return (← get).read path
  contains path := do return (← get).contains path
  write path text := Directory.attempt (·.write path text)
  makeParents path := Directory.attempt (·.makeParents path)
  confirm? _ := pure none

end Cwmp
