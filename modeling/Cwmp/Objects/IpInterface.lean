import Cwmp.Objects.Status
import Cwmp.Table.Change
import Cwmp.Table.Codec

/-! # Interfaces

The IP interfaces of a device with their IPv4 addresses and IPv6 prefixes. Rows that the device
learned from elsewhere are not open to the controller.
-/
namespace Cwmp

inductive InterfaceType
  | normal
  | loopback
  | tunnel
  | tunneled
deriving DecidableEq, Repr

instance : Vocabulary InterfaceType where
  label := "InterfaceType"
  all := [.normal, .loopback, .tunnel, .tunneled]
  word
    | .normal => "Normal"
    | .loopback => "Loopback"
    | .tunnel => "Tunnel"
    | .tunneled => "Tunneled"
  mem_all a := by cases a <;> decide
  word_injective {a b} h := by revert h; cases a <;> cases b <;> decide

inductive AddressingType
  | dhcp
  | autoIp
  | ipcp
  | static
deriving DecidableEq, Repr

instance : Vocabulary AddressingType where
  label := "AddressingType"
  all := [.dhcp, .autoIp, .ipcp, .static]
  word
    | .dhcp => "DHCP"
    | .autoIp => "AutoIP"
    | .ipcp => "IPCP"
    | .static => "Static"
  mem_all a := by cases a <;> decide
  word_injective {a b} h := by revert h; cases a <;> cases b <;> decide

inductive PrefixStatus
  | preferred
  | deprecated
  | invalid
  | inaccessible
  | unknown
deriving DecidableEq, Repr

instance : Vocabulary PrefixStatus where
  label := "PrefixStatus"
  all := [.preferred, .deprecated, .invalid, .inaccessible, .unknown]
  word
    | .preferred => "Preferred"
    | .deprecated => "Deprecated"
    | .invalid => "Invalid"
    | .inaccessible => "Inaccessible"
    | .unknown => "Unknown"
  mem_all a := by cases a <;> decide
  word_injective {a b} h := by revert h; cases a <;> cases b <;> decide

inductive PrefixOrigin
  | autoConfigured
  | prefixDelegation
  | routerAdvertisement
  | wellKnown
  | static
deriving DecidableEq, Repr

instance : Vocabulary PrefixOrigin where
  label := "PrefixOrigin"
  all := [.autoConfigured, .prefixDelegation, .routerAdvertisement, .wellKnown, .static]
  word
    | .autoConfigured => "AutoConfigured"
    | .prefixDelegation => "PrefixDelegation"
    | .routerAdvertisement => "RouterAdvertisement"
    | .wellKnown => "WellKnown"
    | .static => "Static"
  mem_all a := by cases a <;> decide
  word_injective {a b} h := by revert h; cases a <;> cases b <;> decide

/-- Where the value of a static prefix comes from. -/
inductive StaticType
  /-- It is given directly. -/
  | static
  | inapplicable
  | prefixDelegation
  /-- It is derived from a parent prefix. -/
  | child
deriving DecidableEq, Repr

instance : Vocabulary StaticType where
  label := "StaticType"
  all := [.static, .inapplicable, .prefixDelegation, .child]
  word
    | .static => "Static"
    | .inapplicable => "Inapplicable"
    | .prefixDelegation => "PrefixDelegation"
    | .child => "Child"
  mem_all a := by cases a <;> decide
  word_injective {a b} h := by revert h; cases a <;> cases b <;> decide

def staticAddress : List Gate :=
  [⟨"AddressingType", ["Static"]⟩]

/-- Open while a value did not come from elsewhere. -/
def staticOrigin : Gate :=
  ⟨"Origin", ["Static"]⟩

/-- Open while a value is given directly. -/
def staticValue : List Gate :=
  [staticOrigin, ⟨"StaticType", ["Static"]⟩]

/-- Open while a value is derived from that of a parent. -/
def childValue : List Gate :=
  [staticOrigin, ⟨"StaticType", ["Child"]⟩]

def staticRow : List Gate :=
  [staticOrigin]

structure Ipv4Entry where
  enable : Bool := false
  status : Status := .disabled
  aliasText : String := ""
  ipAddress : Option Ipv4 := none
  subnetMask : Option Ipv4 := none
  addressingType : AddressingType := .static
deriving BEq

instance : Entity Ipv4Entry where
  path := [.part "Device", .part "IP", .part "Interface", .row, .part "IPv4Address", .row]
  fields := [
    .rw "Enable" .boolean,
    .ro "Status" (.choice Status),
    .rw "Alias" (.text 64),
    (Field.rw "IPAddress" .ipv4).gated staticAddress,
    (Field.rw "SubnetMask" .ipv4).gated staticAddress,
    .ro "AddressingType" (.choice AddressingType)]
  children := []
  parts e :=
    ((e.enable, e.status, e.aliasText, e.ipAddress, e.subnetMask, e.addressingType, ()), ())
  ofParts
    | ((enable, status, aliasText, ipAddress, subnetMask, addressingType, ()), ()) =>
      { enable, status, aliasText, ipAddress, subnetMask, addressingType }
  initial := {}

structure Ipv6Prefix where
  enable : Bool := false
  status : Status := .disabled
  prefixStatus : PrefixStatus := .unknown
  aliasText : String := ""
  /-- Prefix and length; empty when unknown. -/
  value : String := ""
  origin : PrefixOrigin := .static
  staticType : StaticType := .static
  parentPrefix : String := ""
  childPrefixBits : String := ""
  onLink : Bool := false
  autonomous : Bool := false
  preferredLifetime : Instant := .unknown
  validLifetime : Instant := .unknown
deriving BEq

instance : Entity Ipv6Prefix where
  path := [.part "Device", .part "IP", .part "Interface", .row, .part "IPv6Prefix", .row]
  fields := [
    .rw "Enable" .boolean,
    .ro "Status" (.choice Status),
    (Field.ro "PrefixStatus" (.choice PrefixStatus)).notifying .forceEnabled,
    .rw "Alias" (.text 64),
    (Field.rw "Prefix" (.text 49)).gated staticValue,
    .ro "Origin" (.choice PrefixOrigin),
    (Field.rw "StaticType" (.choice StaticType)).gated staticRow,
    (Field.rw "ParentPrefix" (.text 256)).gated childValue,
    (Field.rw "ChildPrefixBits" (.text 49)).gated childValue,
    (Field.rw "OnLink" .boolean).gated staticRow,
    (Field.rw "Autonomous" .boolean).gated staticRow,
    ((Field.rw "PreferredLifetime" .moment).gated staticRow).notifying .canDeny,
    ((Field.rw "ValidLifetime" .moment).gated staticRow).notifying .canDeny]
  children := []
  parts e :=
    ((e.enable, e.status, e.prefixStatus, e.aliasText, e.value, e.origin, e.staticType,
      e.parentPrefix, e.childPrefixBits, e.onLink, e.autonomous, e.preferredLifetime,
      e.validLifetime, ()), ())
  ofParts
    | ((enable, status, prefixStatus, aliasText, value, origin, staticType, parentPrefix,
      childPrefixBits, onLink, autonomous, preferredLifetime, validLifetime, ()), ()) =>
      { enable, status, prefixStatus, aliasText, value, origin, staticType, parentPrefix,
        childPrefixBits, onLink, autonomous, preferredLifetime, validLifetime }
  initial := {}

/-- Neither of the two marks is an end of validity. -/
instance : Expiring Ipv6Prefix where
  expiresAt e :=
    if e.validLifetime = .unknown ∨ e.validLifetime = .infinite then none
    else some e.validLifetime

/-- What becomes of a prefix whose parent goes away: a child prefix loses its value. -/
def Ipv6Prefix.withoutParent (e : Ipv6Prefix) : Ipv6Prefix :=
  if e.staticType = .child then { e with value := "", prefixStatus := .invalid } else e

structure IpInterface where
  enable : Bool := false
  ipv4Enable : Bool := true
  ipv6Enable : Bool := true
  status : Status := .disabled
  aliasText : String := ""
  name : String := ""
  lowerLayers : String := ""
  interfaceType : InterfaceType := .normal
  loopback : Bool := false
  maxMtuSize : UInt32 := 1500
  ipv4Addresses : Table Ipv4Entry := .empty
  ipv6Prefixes : Table Ipv6Prefix := .empty
deriving BEq

instance : Entity IpInterface where
  path := [.part "Device", .part "IP", .part "Interface", .row]
  fields := [
    .rw "Enable" .boolean,
    .rw "IPv4Enable" .boolean,
    .rw "IPv6Enable" .boolean,
    (Field.ro "Status" (.choice Status)).notifying .forceDefaultEnabled,
    .rw "Alias" (.text 64),
    .ro "Name" (.text 64),
    .rw "LowerLayers" (.text 1024),
    .ro "Type" (.choice InterfaceType),
    .rw "Loopback" .boolean,
    .rw "MaxMTUSize" (.unsigned 64 65535)]
  children := [⟨"IPv4Address", Table Ipv4Entry⟩, ⟨"IPv6Prefix", Table Ipv6Prefix⟩]
  parts e :=
    ((e.enable, e.ipv4Enable, e.ipv6Enable, e.status, e.aliasText, e.name, e.lowerLayers,
      e.interfaceType, e.loopback, e.maxMtuSize, ()), (e.ipv4Addresses, e.ipv6Prefixes, ()))
  ofParts
    | ((enable, ipv4Enable, ipv6Enable, status, aliasText, name, lowerLayers, interfaceType,
      loopback, maxMtuSize, ()), (ipv4Addresses, ipv6Prefixes, ())) =>
      { enable, ipv4Enable, ipv6Enable, status, aliasText, name, lowerLayers, interfaceType,
        loopback, maxMtuSize, ipv4Addresses, ipv6Prefixes }
  initial := {}

end Cwmp
