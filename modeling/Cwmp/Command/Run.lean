import Cwmp.Command.Documents
import Cwmp.Command.Line
import Cwmp.Command.SettingsFile

/-! # Running commands

The program as a whole: from arguments and variables, in some surroundings, to the text on the
standard output and the code at the end.
-/
namespace Cwmp

/-- What a run starts from. -/
structure Start where
  arguments : List String
  environment : List (String × String)
  terminal : Bool := false

inductive RunFault
  | usage
  | error (e : CommandError)
deriving DecidableEq

def RunFault.exitCode : RunFault → Nat
  | usage => 2
  | error e => e.exitCode

structure RunResult where
  standardOutput : String := ""
  fault? : Option RunFault := none
deriving DecidableEq

def RunResult.exitCode (r : RunResult) : Nat :=
  (r.fault?.map RunFault.exitCode).getD 0

theorem RunResult.exitCode_eq_zero_iff {r : RunResult} : r.exitCode = 0 ↔ r.fault? = none := by
  unfold exitCode
  cases r.fault? with
  | none => simp
  | some fault =>
    cases fault with
    | usage => simp [RunFault.exitCode]
    | error e => simpa [RunFault.exitCode] using Nat.pos_iff_ne_zero.mp e.exitCode_pos

namespace Command

variable {m : Type → Type} [Monad m] [Surroundings m]

def execute (c : Context) : Command → Action m Outcome
  | objects => pure { shown := ObjectKind.report.text c.output }
  | schema kind =>
    pure { shown := (Field.report c.paints (Entity.fields kind.collection.Row)).text c.output }
  | defaults kind => pure { shown := kind.initialReport.text c.output }
  | params place path? => place.showParameters c path?
  | validate place => place.validate c
  | set place row values origin save => place.set c row values origin save
  | add place values rank? origin save => place.add c values rank? origin save
  | delete place row save => place.delete c row save
  | settings _ => pure {}

/-- Carries out a command. Those on the settings file do without sound settings where they can. -/
def run (start : Start) (common : CommonOptions) (command : Command) : Action m Outcome := do
  let path := common.settingsFile.getD (standardSettingsFile start.environment)
  match command with
  | settings .init => SettingsCommand.create path
  | settings .path => pure { shown := path }
  | settings .display => SettingsCommand.showSettings common path start.environment start.terminal
  | command =>
    let loaded ← loadSettings path start.environment
    let context ← MonadExcept.ofExcept (Context.resolve common loaded start.terminal)
    command.execute context

end Command

/-- What a shown text looks like on the standard output. -/
def printed (quiet : Bool) (shown : String) : String :=
  if quiet ∨ shown = "" then "" else shown ++ "\n"

/-- A run of the program. -/
def Start.run {m : Type → Type} [Monad m] [Surroundings m] (start : Start) : m RunResult := do
  match Invocation.read? start.environment start.arguments with
  | none => pure { fault? := some .usage }
  | some ⟨common, command⟩ =>
    match ← (command.run start common).run with
    | .error e => pure { fault? := some (.error e) }
    | .ok outcome => pure {
        standardOutput := printed common.quiet outcome.shown
        fault? := outcome.complaint?.map .error }

end Cwmp
