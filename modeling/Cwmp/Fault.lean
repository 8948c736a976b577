import Cwmp.Text.CommaList
import Cwmp.Text.Decimal

/-! # Faults

A refused write is reported by faults: the parameter that caused each, a code of the protocol and
a message. A `SetFault` collects the faults of one refused request.
-/
namespace Cwmp

/-- The fault codes of the protocol that a parameter write can meet. -/
inductive FaultCode
  /-- The request as a whole is malformed; also the code over several faults. -/
  | invalidArguments
  /-- A table has reached its limit. -/
  | resourcesExceeded
  /-- No such parameter. -/
  | invalidParameterName
  /-- The text cannot be read as the parameter's type. -/
  | invalidParameterType
  /-- Well typed, but out of range, too long, not among the words, or not unique. -/
  | invalidParameterValue
  /-- Read-only, or gated by a mode that is off. -/
  | nonWritableParameter
  /-- The requested notification level is refused. -/
  | notificationRequestRejected
deriving DecidableEq, Repr

namespace FaultCode

def code : FaultCode → Nat
  | invalidArguments => 9003
  | resourcesExceeded => 9004
  | invalidParameterName => 9005
  | invalidParameterType => 9006
  | invalidParameterValue => 9007
  | nonWritableParameter => 9008
  | notificationRequestRejected => 9009

def word : FaultCode → String
  | invalidArguments => "InvalidArguments"
  | resourcesExceeded => "ResourcesExceeded"
  | invalidParameterName => "InvalidParameterName"
  | invalidParameterType => "InvalidParameterType"
  | invalidParameterValue => "InvalidParameterValue"
  | nonWritableParameter => "NonWritableParameter"
  | notificationRequestRejected => "NotificationRequestRejected"

def all : List FaultCode :=
  [invalidArguments, resourcesExceeded, invalidParameterName, invalidParameterType,
    invalidParameterValue, nonWritableParameter, notificationRequestRejected]

def text (c : FaultCode) : String :=
  Text.decimal c.code

end FaultCode

structure ParameterFault where
  parameter : String
  code : FaultCode
  message : String
deriving DecidableEq, Repr

namespace ParameterFault

def text (f : ParameterFault) : String :=
  f.parameter ++ ": " ++ f.message ++ " (" ++ f.code.text ++ ")"

/-- The fault of the same parameter named from further up: `path` stands before its name. -/
def under (path : String) (f : ParameterFault) : ParameterFault :=
  { f with parameter := path ++ f.parameter }

end ParameterFault

/-- A refused request. Nothing of it has been applied. -/
structure SetFault where
  code : FaultCode := .invalidArguments
  faults : List ParameterFault
deriving DecidableEq, Repr

namespace SetFault

/-- The names of the offending parameters, in the order of the faults. -/
def parameters (f : SetFault) : List String :=
  f.faults.map (·.parameter)

def text (f : SetFault) : String :=
  Text.joinWith "; "
    ((Text.decimal f.faults.length ++ " parameter(s) rejected") :: f.faults.map (·.text))

def under (path : String) (f : SetFault) : SetFault :=
  { f with faults := f.faults.map (·.under path) }

end SetFault
end Cwmp
