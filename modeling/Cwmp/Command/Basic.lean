import Cwmp.Entity.Write
import Cwmp.Listing.Report
import Cwmp.ObjectKind

/-! # Commands

What the program can be asked to do, with the data that each command needs.
-/
namespace Cwmp

inductive SettingsCommand
  | init
  | display
  | path
deriving DecidableEq, Repr

/-- The table document that a command is about. -/
structure DocumentPlace where
  kind : ObjectKind
  file : String
deriving DecidableEq, Repr

/-- A row by its number or its alias. -/
abbrev RowName := String

/-- Parameters and texts as they stand on the command line. -/
abbrev Assignments := List String

inductive Command
  | objects
  | schema (kind : ObjectKind)
  | defaults (kind : ObjectKind)
  /-- All parameters of a document, below a path. -/
  | params (place : DocumentPlace) (path : Option String)
  | validate (place : DocumentPlace)
  | set (place : DocumentPlace) (row : RowName) (values : Assignments) (origin : Origin)
    (save : Bool)
  | add (place : DocumentPlace) (values : Assignments) (rank : Option UInt32) (origin : Origin)
    (save : Bool)
  | delete (place : DocumentPlace) (row : RowName) (save : Bool)
  | settings (command : SettingsCommand)

/-- The options that every command takes. -/
structure CommonOptions where
  settingsFile : Option String := none
  output : Option OutputFormat := none
  color : Option ColorMode := none
  quiet : Bool := false
  /-- Do not ask before something is lost. -/
  yes : Bool := false
deriving DecidableEq, Repr

/-- Options of an inner level before those of the levels around it. -/
def CommonOptions.over (inner outer : CommonOptions) : CommonOptions where
  settingsFile := inner.settingsFile <|> outer.settingsFile
  output := inner.output <|> outer.output
  color := inner.color <|> outer.color
  quiet := inner.quiet || outer.quiet
  yes := inner.yes || outer.yes

/-- A command with its options. -/
structure Invocation where
  common : CommonOptions
  command : Command

end Cwmp
