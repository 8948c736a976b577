import Cwmp.Files.Directory
import Cwmp.ModelError
import Cwmp.ObjectKind
import Cwmp.Settings.Basic

/-! # Errors of commands

Why a command fails. Every cause has a message, a label and an exit code, and some have advice.
-/
namespace Cwmp

inductive CommandError
  /-- A refused write, with the code that a session would report. -/
  | rejected (kind : ObjectKind) (code : FaultCode) (fault : SetFault)
  | deviceOwned (kind : ObjectKind)
  | invalidDocument (problems : Nat)
  | rowNotFound (kind : ObjectKind) (error : ModelError)
  | conflict (error : ModelError)
  | invalidValue (field reason : String)
  | settingsExist (path : String)
  | settingsUnreadable
  | settings (fault : Settings.Fault)
  | settingsFile (fault : FileFault)
  | unconfirmed (action : String)
  | file (fault : FileFault)
  | unreadableDocument (path : String)
  /-- A number of the settings that their file cannot hold. -/
  | numberTooLarge
deriving DecidableEq

namespace CommandError

def message : CommandError → String
  | rejected _ code fault => "SetParameterValues rejected (" ++ code.text ++ "): " ++ fault.text
  | deviceOwned kind => kind.name ++ " rows are created by the device"
  | invalidDocument problems =>
    "Document failed validation: " ++ Text.decimal problems ++ " problem(s)"
  | rowNotFound _ error => error.message
  | conflict error => error.message ++ " (" ++ error.faultCode.text ++ ")"
  | invalidValue field reason => "Invalid value for " ++ field ++ ": " ++ reason
  | settingsExist _ => "Configuration file already exists"
  | settingsUnreadable => "config loading failed"
  | settings fault => fault.message
  | settingsFile fault => "IO error: " ++ fault.message
  | unconfirmed action => "Destructive operation '" ++ action ++ "' requires confirmation"
  | file fault => fault.message
  | unreadableDocument path => "Invalid document " ++ path
  | numberTooLarge => "Could not render output: out-of-range value for u64 type"

def help? : CommandError → Option String
  | rejected kind .. =>
    some ("Run: tr069 schema " ++ kind.name ++ " to see access modes, bounds and gates")
  | deviceOwned _ => some "Pass --as-device to add the row as the device would"
  | rowNotFound kind _ =>
    some ("Run: tr069 params " ++ kind.name ++ " <FILE> to see the rows in the document")
  | settingsExist path =>
    some ("Edit it directly, or remove it and run: tr069 config init\nPath: " ++ path)
  | unconfirmed _ => some "Use --yes (-y) to skip confirmation in non-interactive contexts."
  | unreadableDocument _ =>
    some "A table document maps instance numbers to rows keyed by wire name."
  | _ => none

def label? : CommandError → Option String
  | rejected .. => some "tr069::rejected"
  | deviceOwned _ => some "tr069::device_owned"
  | invalidDocument _ => some "tr069::invalid_document"
  | rowNotFound .. => some "tr069::not_found"
  | conflict _ => some "tr069::conflict"
  | invalidValue .. => some "tr069::validation"
  | settingsExist _ => some "tr069::config_exists"
  | settingsUnreadable | settings _ | settingsFile _ => some "tr069::config"
  | unconfirmed _ => some "tr069::confirmation_required"
  | file _ => none
  | unreadableDocument _ => some "tr069::document"
  | numberTooLarge => some "tr069::render"

def exitCode : CommandError → Nat
  | rejected .. | deviceOwned _ | invalidDocument _ => 3
  | rowNotFound .. => 4
  | conflict _ | settingsExist _ => 6
  | invalidValue .. | unconfirmed _ => 2
  | _ => 1

/-- The error of a command about rows of a kind. -/
def ofModel (kind : ObjectKind) (error : ModelError) : CommandError :=
  match error with
  | .setParameterValues fault => rejected kind fault.code fault
  | .parameter fault => rejected kind fault.code { faults := [fault] }
  | .instanceNotFound .. | .aliasNotFound .. => rowNotFound kind error
  | .duplicateAlias .. | .uniqueConstraint .. | .tableFull .. => conflict error
  | .invalidAlias fault =>
    invalidValue Entity.aliasName ("'" ++ fault.text ++ "': " ++ fault.flaw.message)
  | .invalidOrder name value =>
    invalidValue name (Text.decimal value ++ " is not a rank; orders start at 1")

theorem exitCode_pos (e : CommandError) : 0 < e.exitCode := by
  cases e <;> simp [exitCode]

end CommandError
end Cwmp
