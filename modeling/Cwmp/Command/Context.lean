import Cwmp.Command.Basic
import Cwmp.Command.Error
import Cwmp.Files.Surroundings

/-! # Contexts

What a command goes by when it runs: its options, and the settings where no option is given.
-/
namespace Cwmp

/-- A command that runs somewhere and may fail. -/
abbrev Action (m : Type → Type) := ExceptT CommandError m

/-- What a command shows. A command may complain about something after it has shown its result. -/
structure Outcome where
  shown : String := ""
  complaint? : Option CommandError := none

/-- What a command goes by. -/
structure Context where
  output : OutputFormat
  color : ColorMode
  options : Options
  yes : Bool
  /-- Whether results are shown on a terminal that knows colors. -/
  terminal : Bool

namespace Context

def paints (c : Context) : Bool :=
  c.color.isOn c.terminal

/-- An option that was given, or else what the settings say by a word. -/
def choose {A : Type} (field : String) (word : A → String) (all : List A) (given : Option A)
    (setting : String) : Except CommandError A :=
  match given, ofWordAnyCase? word all setting with
  | some a, _ | none, some a => .ok a
  | none, none => .error (.invalidValue field ("invalid variant: " ++ setting))

/-- The context that options and settings make. -/
def resolve (common : CommonOptions) (settings : Settings) (terminal : Bool) :
    Except CommandError Context := do
  let output ← choose "defaults.output" OutputFormat.word OutputFormat.all common.output
    settings.output
  let color ← choose "defaults.color" ColorMode.word ColorMode.all common.color settings.color
  let options ← settings.options.mapError .settings
  pure { output, color, options, yes := common.yes, terminal }

end Context

/-- The settings file if no option names one: in the folder for settings, which by custom is below
the home folder. -/
def standardSettingsFile (environment : List (String × String)) : String :=
  match environment.lookup "XDG_CONFIG_HOME" with
  | some folder =>
    if Path.isAbsolute folder then folder ++ "/tr069/config.toml"
    else homeSettings
  | none => homeSettings
where
  homeSettings : String :=
    (environment.lookup "HOME").getD "" ++ "/.config/tr069/config.toml"

/-- The settings of a file and of variables. A file that is not there says nothing. -/
def loadSettings {m : Type → Type} [Monad m] [Surroundings m] (path : String)
    (environment : List (String × String)) : Action m Settings := do
  let text ← (Surroundings.read path : m (Except FileFault String))
  match Settings.load? text.toOption environment with
  | some settings => pure settings
  | none => throw .settingsUnreadable

end Cwmp
