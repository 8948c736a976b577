import Cwmp.Entity.Codec
import Cwmp.Objects.Status

/-! # Audio outputs

The audio outputs of a set-top box.
-/
namespace Cwmp

inductive AudioFormat
  | opticalSpdif
  | coaxialSpdif
  | surround
  | stereo
  | hdmi
  | rf
deriving DecidableEq, Repr

instance : Vocabulary AudioFormat where
  label := "AudioFormat"
  all := [.opticalSpdif, .coaxialSpdif, .surround, .stereo, .hdmi, .rf]
  word
    | .opticalSpdif => "DIGITAL-OPTICAL-SP/DIF"
    | .coaxialSpdif => "DIGITAL-COAXIAL-SP/DIF"
    | .surround => "ANALOG-5.1-CHANNEL"
    | .stereo => "ANALOG-2-CHANNEL"
    | .hdmi => "HDMI"
    | .rf => "RF"
  mem_all a := by cases a <;> decide
  word_injective {a b} h := by revert h; cases a <;> cases b <;> decide

structure AudioOutput where
  enable : Bool := false
  status : Status := .disabled
  aliasText : String := ""
  name : String := ""
  audioFormat : AudioFormat := .stereo
  /-- In percent of the largest level. -/
  audioLevel : UInt32 := 50
  cancelMute : Bool := false
  /-- Paths of the connectors that the output feeds. -/
  scartReferences : List String := []
deriving BEq

instance : Entity AudioOutput where
  path := [.part "Device", .part "Services", .part "STBService", .row, .part "Components",
    .part "AudioOutput", .row]
  fields := [
    .rw "Enable" .boolean,
    .ro "Status" (.choice Status),
    .rw "Alias" (.text 64),
    .ro "Name" (.text 256),
    .rw "AudioFormat" (.choice AudioFormat),
    .rw "AudioLevel" (.unsigned 0 100),
    .rw "CancelMute" .boolean,
    .ro "SCARTs" (.list 1024)]
  children := []
  parts e :=
    ((e.enable, e.status, e.aliasText, e.name, e.audioFormat, e.audioLevel, e.cancelMute,
      e.scartReferences, ()), ())
  ofParts
    | ((enable, status, aliasText, name, audioFormat, audioLevel, cancelMute, scartReferences, ()),
      ()) =>
      { enable, status, aliasText, name, audioFormat, audioLevel, cancelMute, scartReferences }
  initial := {}

end Cwmp
