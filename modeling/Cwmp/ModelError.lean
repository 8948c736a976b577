import Cwmp.Alias
import Cwmp.Fault

/-! # Errors of the data model

What can go wrong with a table or a parameter, each cause with its data. The message of a cause and
its fault code are functions of it.
-/
namespace Cwmp

inductive ModelError
  | instanceNotFound (object : String) (i : InstanceNumber)
  | aliasNotFound (object aliasText : String)
  | duplicateAlias (object aliasText : String)
  | invalidAlias (fault : AliasFault)
  | invalidOrder (name : String) (value : Nat)
  | tableFull (object : String) (maxEntries : Nat)
  | uniqueConstraint (object : String) (parameters : List String)
  | setParameterValues (fault : SetFault)
  | parameter (fault : ParameterFault)
deriving DecidableEq

namespace ModelError

open Text

def message : ModelError → String
  | instanceNotFound object i => object ++ " instance " ++ i.text ++ " not found"
  | aliasNotFound object s => object ++ " alias '" ++ s ++ "' not found"
  | duplicateAlias object s => object ++ " alias '" ++ s ++ "' is already in use"
  | invalidAlias fault => fault.message
  | invalidOrder name value =>
    "Invalid " ++ name ++ " value " ++ decimal value ++ ": orders start at 1"
  | tableFull object maxEntries =>
    object ++ " table is full (" ++ decimal maxEntries ++ " entries)"
  | uniqueConstraint object parameters =>
    object ++ " row violates uniqueness of (" ++ joinWith ", " parameters ++ ")"
  | setParameterValues fault => "SetParameterValues rejected: " ++ fault.text
  | parameter fault => fault.text

def faultCode : ModelError → FaultCode
  | instanceNotFound .. | aliasNotFound .. => .invalidParameterName
  | duplicateAlias .. | invalidAlias .. | invalidOrder .. | uniqueConstraint .. =>
    .invalidParameterValue
  | tableFull .. => .resourcesExceeded
  | setParameterValues fault => fault.code
  | parameter fault => fault.code

def parameterFaults : ModelError → List ParameterFault
  | setParameterValues fault => fault.faults
  | parameter fault => [fault]
  | _ => []

end ModelError
end Cwmp
