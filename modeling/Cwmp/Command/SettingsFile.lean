import Cwmp.Command.Context

/-! # Work on the settings file

Writing a first settings file, showing the settings that apply, and telling where the file is.
-/
namespace Cwmp

def Settings.doc (s : Settings) : Doc :=
  .table [
    (.name "defaults", .table [(.name "output", .text s.output), (.name "color", .text s.color)]),
    (.name "model", .table [(.name "alias_prefix", .text s.aliasStart),
      (.name "max_entries", (s.maxEntries.map fun (n : Nat) => Doc.integer n).getD .null)])]

/-- Settings as they stand in their file, or as a document. -/
def Settings.report? (s : Settings) : Option Report :=
  s.write?.map fun text =>
    let shown := String.ofList (Text.dropTrailingBlanks text.toList)
    { grid := shown, plain := shown, doc := s.doc }

namespace SettingsCommand

variable {m : Type → Type} [Monad m] [Surroundings m]

/-- The value of an action on the settings file. -/
def orFail {A : Type} (result : Except FileFault A) : Action m A :=
  MonadExcept.ofExcept (result.mapError .settingsFile)

/-- Writes a first settings file. One that is there stays. -/
def create (path : String) : Action m Outcome := do
  if ← (Surroundings.contains path : m Bool) then throw (.settingsExist path)
  orFail (← (Surroundings.makeParents path : m (Except FileFault Unit)))
  let text := (Settings.write? {}).getD ""
  orFail (← (Surroundings.write path text : m (Except FileFault Unit)))
  pure { shown := "Wrote " ++ path }

def showSettings (common : CommonOptions) (path : String) (environment : List (String × String))
    (terminal : Bool) : Action m Outcome := do
  let settings ← loadSettings path environment
  let context ← MonadExcept.ofExcept (Context.resolve common settings terminal)
  match settings.report? with
  | some report => pure { shown := report.text context.output }
  | none => throw .numberTooLarge

end SettingsCommand
end Cwmp
