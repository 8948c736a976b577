import Cwmp.Doc.Structure
import Cwmp.Fault

/-! # Faults in documents -/
namespace Cwmp

def FaultCode.ofWord? (s : String) : Option FaultCode :=
  all.find? fun c => c.word == s

instance : Codec FaultCode where
  encode c := .text c.word
  decode d := Doc.orMalformed (d.word?.bind FaultCode.ofWord?)

namespace ParameterFault

def ofDoc? (d : Doc) : Option ParameterFault :=
  match d.structure? ["parameter", "code", "message"] with
  | some [some parameter, some code, some message] => do
    let parameter ← parameter.textOnly?
    let code ← code.word?.bind FaultCode.ofWord?
    let message ← message.textOnly?
    pure { parameter, code, message }
  | _ => none

instance : Codec ParameterFault where
  encode f := .table [
    (.name "parameter", .text f.parameter),
    (.name "code", Codec.encode f.code),
    (.name "message", .text f.message)]
  decode d := Doc.orMalformed (ofDoc? d)

end ParameterFault

instance : Codec SetFault where
  encode f := .table [
    (.name "code", Codec.encode f.code),
    (.name "faults", .list (f.faults.map Codec.encode))]
  decode d := Doc.orMalformed <|
    match d.structure? ["code", "faults"] with
    | some [some code, some (.list items)] => do
      let code ← code.word?.bind FaultCode.ofWord?
      let faults ← items.mapM ParameterFault.ofDoc?
      pure { code, faults }
    | _ => none

end Cwmp
