import Cwmp.Doc.Structure
import Cwmp.Entity.Basic

/-! # Notification

Which changes of parameters are to be reported, and how. The controller sets a level for each
parameter as far as the parameter's policy lets it.
-/
namespace Cwmp

/-- How a change of a parameter is reported. -/
inductive Level
  | off
  /-- Along with the next message. -/
  | passive
  /-- By a message of its own. -/
  | active
deriving DecidableEq, Repr

namespace Level

def code : Level → Nat
  | off => 0
  | passive => 1
  | active => 2

def ofCode? : Nat → Option Level
  | 0 => some off
  | 1 => some passive
  | 2 => some active
  | _ => none

def word : Level → String
  | off => "Off"
  | passive => "Passive"
  | active => "Active"

instance : Codec Level where
  encode l := .text l.word
  decode d :=
    Doc.orMalformed (d.word?.bind fun s => [off, passive, active].find? fun l => l.word == s)

end Level

/-- The levels that are kept for the parameters of one type of object. -/
structure Notification (E : Type) where
  levels : List (String × Level)

/-- A change of a parameter that is to be reported. -/
structure ValueChange where
  parameter : String
  before : Value
  after : Value
  level : Level
deriving DecidableEq

namespace Notification

variable {E : Type} [Entity E]

variable (E) in
/-- The levels at first: active where the policy says so. -/
def initial : Notification E where
  levels := (Entity.fields E).filterMap fun f =>
    if f.notify = .forceEnabled ∨ f.notify = .forceDefaultEnabled then some (f.name, .active)
    else none

/-- The level in effect for a parameter. -/
def level (n : Notification E) (name : String) : Level :=
  match Entity.field? E name with
  | none => .off
  | some f => if f.notify = .forceEnabled then .active else (n.levels.lookup name).getD .off

/-- The parameters that are not off, with their levels. -/
def inEffect (n : Notification E) : List (String × Level) :=
  ((Entity.fields E).map fun f => (f.name, n.level f.name)).filter fun p => p.2 ≠ .off

def set (n : Notification E) (name : String) (level : Level) :
    Except ParameterFault (Notification E) :=
  match Entity.field? E name with
  | none =>
    .error ⟨name, .invalidParameterName, "no such parameter on " ++ Entity.pathText E⟩
  | some f =>
    match f.notify, level with
    | .canDeny, .active =>
      .error ⟨name, .notificationRequestRejected,
        "active notification denied for this parameter"⟩
    | .forceEnabled, _ => .ok n
    | _, _ => .ok ⟨(name, level) :: n.levels.filter fun p => p.1 != name⟩

/-- The changes between two states of an object that are to be reported. -/
def changes (n : Notification E) (before after : E) : List ValueChange :=
  (Entity.fields E).filterMap fun f =>
    match n.level f.name with
    | .off => none
    | level =>
      match Entity.read? before f.name, Entity.read? after f.name with
      | some v, some w => if v = w then none else some ⟨f.name, v, w, level⟩
      | _, _ => none

end Notification
end Cwmp
