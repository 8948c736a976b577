import Cwmp.Match.Criterion
import Cwmp.Objects.Status
import Cwmp.Table.Ranking

/-! # Conditional pools

Pools that serve the requests of some clients only, in the order of their ranks.
-/
namespace Cwmp

/-- Where the addresses of a conditional pool come from. -/
inductive AddressSource
  /-- From the range of the pool. -/
  | normal
  /-- From the subnet allocated to the associated connection. -/
  | useAllocatedSubnet
  /-- The WAN address itself goes to a single client. -/
  | passthrough
deriving DecidableEq, Repr

instance : Vocabulary AddressSource where
  label := "UseAllocatedWan"
  all := [.normal, .useAllocatedSubnet, .passthrough]
  word
    | .normal => "Normal"
    | .useAllocatedSubnet => "UseAllocatedSubnet"
    | .passthrough => "Passthrough"
  mem_all a := by cases a <;> decide
  word_injective {a b} h := by revert h; cases a <;> cases b <;> decide

/-- Open while the WAN address itself is handed out. -/
def passingThrough : List Gate :=
  [⟨"UseAllocatedWAN", ["Passthrough"]⟩]

/-- Open while requests are relayed. -/
def relayed : List Gate :=
  [⟨"LocallyServed", ["false"]⟩]

/-- A pool for the requests that its criteria pick out. -/
structure ConditionalPool where
  enable : Bool := false
  status : Status := .disabled
  aliasText : String := ""
  poolOrder : UInt32 := 1
  sourceInterface : String := ""
  vendorClassId : String := ""
  vendorClassIdExclude : Bool := false
  vendorClassIdMode : VendorMode := .exact
  clientId : String := ""
  clientIdExclude : Bool := false
  userClassId : String := ""
  userClassIdExclude : Bool := false
  chaddr : Option Mac := none
  chaddrMask : Option Mac := none
  chaddrExclude : Bool := false
  locallyServed : Bool := true
  minAddress : Option Ipv4 := none
  maxAddress : Option Ipv4 := none
  reservedAddresses : List String := []
  subnetMask : Option Ipv4 := none
  dnsServers : List String := []
  domainName : String := ""
  ipRouters : List String := []
  dhcpLeaseTime : Int32 := 86400
  useAllocatedWan : AddressSource := .normal
  associatedConnection : String := ""
  dhcpServerIpAddress : Option Ipv4 := none
  /-- In seconds. -/
  passthroughLease : UInt32 := 600
  passthroughMacAddress : Option Mac := none
deriving BEq

instance : Entity ConditionalPool where
  path := [.part "InternetGatewayDevice", .part "LANDevice", .row,
    .part "LANHostConfigManagement", .part "DHCPConditionalServingPool", .row]
  fields := [
    .rw "Enable" .boolean,
    .ro "Status" (.choice Status),
    .rw "Alias" (.text 64),
    .rw "PoolOrder" (.unsigned 1 4294967295),
    .rw "SourceInterface" (.text 1024),
    .rw "VendorClassID" (.text 255),
    .rw "VendorClassIDExclude" .boolean,
    .rw "VendorClassIDMode" (.choice VendorMode),
    .rw "ClientID" (.text 255),
    .rw "ClientIDExclude" .boolean,
    .rw "UserClassID" (.text 255),
    .rw "UserClassIDExclude" .boolean,
    .rw "Chaddr" .mac,
    .rw "ChaddrMask" .mac,
    .rw "ChaddrExclude" .boolean,
    .rw "LocallyServed" .boolean,
    .rw "MinAddress" .ipv4,
    .rw "MaxAddress" .ipv4,
    .rw "ReservedAddresses" (.list 256),
    .rw "SubnetMask" .ipv4,
    .rw "DNSServers" (.list 64),
    .rw "DomainName" (.text 64),
    .rw "IPRouters" (.list 64),
    .rw "DHCPLeaseTime" (.int (-1) 2147483647),
    .rw "UseAllocatedWAN" (.choice AddressSource),
    .rw "AssociatedConnection" (.text 256),
    (Field.rw "DHCPServerIPAddress" .ipv4).gated relayed,
    (Field.rw "PassthroughLease" (.unsigned 0 4294967295)).gated passingThrough,
    (Field.rw "PassthroughMACAddress" .mac).gated passingThrough]
  children := []
  parts e :=
    ((e.enable, e.status, e.aliasText, e.poolOrder, e.sourceInterface, e.vendorClassId,
      e.vendorClassIdExclude, e.vendorClassIdMode, e.clientId, e.clientIdExclude, e.userClassId,
      e.userClassIdExclude, e.chaddr, e.chaddrMask, e.chaddrExclude, e.locallyServed,
      e.minAddress, e.maxAddress, e.reservedAddresses, e.subnetMask, e.dnsServers, e.domainName,
      e.ipRouters, e.dhcpLeaseTime, e.useAllocatedWan, e.associatedConnection,
      e.dhcpServerIpAddress, e.passthroughLease, e.passthroughMacAddress, ()), ())
  ofParts
    | ((enable, status, aliasText, poolOrder, sourceInterface, vendorClassId, vendorClassIdExclude,
      vendorClassIdMode, clientId, clientIdExclude, userClassId, userClassIdExclude, chaddr,
      chaddrMask, chaddrExclude, locallyServed, minAddress, maxAddress, reservedAddresses,
      subnetMask, dnsServers, domainName, ipRouters, dhcpLeaseTime, useAllocatedWan,
      associatedConnection, dhcpServerIpAddress, passthroughLease, passthroughMacAddress,
      ()), ()) =>
      { enable, status, aliasText, poolOrder, sourceInterface, vendorClassId, vendorClassIdExclude,
        vendorClassIdMode, clientId, clientIdExclude, userClassId, userClassIdExclude, chaddr,
        chaddrMask, chaddrExclude, locallyServed, minAddress, maxAddress, reservedAddresses,
        subnetMask, dnsServers, domainName, ipRouters, dhcpLeaseTime, useAllocatedWan,
        associatedConnection, dhcpServerIpAddress, passthroughLease, passthroughMacAddress }
  initial := {}

instance : Ranked ConditionalPool where
  rankName := "PoolOrder"
  rank e := e.poolOrder
  withRank e n := { e with poolOrder := n }
  put_rankName e n := by
    change Except.map _ (Except.map _ (Except.map _ (Except.map _ (Except.map _
      ((Shape.unsigned 1 4294967295).store _))))) = _
    rw [Shape.store_unsigned_toNat 1 4294967295 (Eq.refl true)]
    rfl

/-- Whether an interface is among those of a comma-separated text; an empty text names all. -/
def ConditionalPool.servesInterface (e : ConditionalPool) (interface : String) : Bool :=
  e.sourceInterface == "" ||
    (Text.splitAt ',' e.sourceInterface.toList).any fun piece => Text.trim piece == interface.toList

instance : Classifier ConditionalPool DhcpRequest where
  applies e r :=
    e.enable &&
    e.servesInterface r.interface &&
    (Criterion.textBy e.vendorClassIdMode.holds e.vendorClassId e.vendorClassIdExclude).holds
      r.vendorClassId &&
    (Criterion.text e.clientId e.clientIdExclude).holds r.clientId &&
    (Criterion.text e.userClassId e.userClassIdExclude).holds r.userClassId &&
    (Criterion.masked e.chaddr e.chaddrMask e.chaddrExclude).holds (some r.chaddr)

end Cwmp
