import Cwmp.Command.Run

/-! # The program

Runs a command on the files of the current folder, with the variables that it knows of.
-/
namespace Cwmp

/-- The fault that the system reports. Some system calls report its number with a minus sign. -/
def FileFault.ofError (e : IO.Error) : FileFault :=
  match e with
  | .noFileOrDirectory _ code _ | .inappropriateType _ code _ | .alreadyExists _ code _
  | .invalidArgument _ code _ =>
    match (min code (0 - code)).toNat with
    | 2 => .missing
    | 17 => .present
    | 20 => .notFolder
    | 21 => .isFolder
    | 36 => .nameTooLong
    | _ => .other (toString e)
  | _ => .other (toString e)

/-- The value of something that the system may refuse. -/
def attempt {A : Type} (action : IO A) : IO (Except FileFault A) := do
  match ← action.toBaseIO with
  | .ok a => pure (.ok a)
  | .error e => pure (.error (.ofError e))

/-- Asks a question, if somebody sits at a terminal to answer it. -/
def ask? (question : String) : IO (Option Bool) := do
  let input ← IO.getStdin
  if ← input.isTty then
    IO.eprint (question ++ " [y/N] ")
    let answer := (Text.trimmed (← input.getLine)).toLower
    pure (some (answer = "y" ∨ answer = "yes"))
  else pure none

instance : Surroundings IO where
  read path := attempt (IO.FS.readFile path)
  contains path := do pure (← attempt (IO.FS.realPath path)).isOk
  write path text := attempt (IO.FS.writeFile path text)
  makeParents path :=
    if (Path.moves path).dropLast = [] then pure (.ok ())
    else attempt (IO.FS.createDirAll (Text.joinWith "/" (Path.parts path).dropLast))
  confirm? := ask?

def knownVariables : List String :=
  [settingsFileVariable, outputVariable, "TR069_DEFAULTS", "TR069_DEFAULTS__OUTPUT",
    "TR069_DEFAULTS__COLOR", "TR069_MODEL", "TR069_MODEL__ALIAS_PREFIX",
    "TR069_MODEL__MAX_ENTRIES", "XDG_CONFIG_HOME", "HOME"]

/-- What is said of a run that did not end well. -/
def RunFault.text : RunFault → String
  | usage => "error: the command line cannot be understood"
  | error e =>
    Text.joinWith "\n" (e.label?.toList ++ ["  × " ++ e.message] ++
      (e.help?.map fun help => "  help: " ++ help).toList)

/-- Runs the program, and gives the code with which it ends. -/
def runProgram (arguments : List String) : IO UInt32 := do
  let environment ← knownVariables.filterMapM fun name => do
    pure ((← IO.getEnv name).map fun value => (name, value))
  let terminal ← (← IO.getStdout).isTty
  let colorless := (← IO.getEnv "NO_COLOR").isSome
  let result ← (Start.run ⟨arguments, environment, terminal && !colorless⟩ : IO RunResult)
  IO.print result.standardOutput
  if let some fault := result.fault? then IO.eprintln fault.text
  pure (UInt32.ofNat result.exitCode)

end Cwmp

def main (arguments : List String) : IO UInt32 :=
  Cwmp.runProgram arguments
