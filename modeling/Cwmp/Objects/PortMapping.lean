import Cwmp.Entity.Codec

/-! # Port mappings

Ports of the outside that lead to a host inside.
-/
namespace Cwmp

inductive MappingProtocol
  | tcp
  | udp
deriving DecidableEq, Repr

instance : Vocabulary MappingProtocol where
  label := "PortMappingProtocol"
  all := [.tcp, .udp]
  word
    | .tcp => "TCP"
    | .udp => "UDP"
  mem_all a := by cases a <;> decide
  word_injective {a b} h := by revert h; cases a <;> cases b <;> decide

/-- A mapping. An empty remote host and an external port of 0 stand for any. -/
structure PortMapping where
  enabled : Bool := false
  aliasText : String := ""
  /-- In seconds; 0 is a mapping that stays. -/
  leaseDuration : UInt32 := 0
  remoteHost : String := ""
  externalPort : UInt32 := 0
  externalPortEndRange : UInt32 := 0
  internalPort : UInt32 := 0
  protocol : MappingProtocol := .tcp
  internalClient : String := ""
  description : String := ""
deriving BEq

instance : Entity PortMapping where
  path := [.part "InternetGatewayDevice", .part "WANDevice", .row, .part "WANConnectionDevice",
    .row, .part "WANIPConnection", .row, .part "PortMapping", .row]
  fields := [
    .rw "PortMappingEnabled" .boolean,
    .rw "Alias" (.text 64),
    .rw "PortMappingLeaseDuration" (.unsigned 0 4294967295),
    .rw "RemoteHost" (.text 256),
    .rw "ExternalPort" (.unsigned 0 65535),
    .rw "ExternalPortEndRange" (.unsigned 0 65535),
    .rw "InternalPort" (.unsigned 0 65535),
    .rw "PortMappingProtocol" (.choice MappingProtocol),
    .rw "InternalClient" (.text 256),
    .rw "PortMappingDescription" (.text 256)]
  children := []
  parts e :=
    ((e.enabled, e.aliasText, e.leaseDuration, e.remoteHost, e.externalPort, e.externalPortEndRange,
      e.internalPort, e.protocol, e.internalClient, e.description, ()), ())
  ofParts
    | ((enabled, aliasText, leaseDuration, remoteHost, externalPort, externalPortEndRange,
      internalPort, protocol, internalClient, description, ()), ()) =>
      { enabled, aliasText, leaseDuration, remoteHost, externalPort, externalPortEndRange,
        internalPort, protocol, internalClient, description }
  initial := {}
  keys := [{ parameters := ["RemoteHost", "ExternalPort", "PortMappingProtocol"] }]
  isEnabled e := e.enabled

end Cwmp
