import Cwmp.Match.Criterion
import Cwmp.Objects.Status
import Cwmp.Table.Ranking

/-! # Address pools

The pools of a DHCP server with the addresses reserved in them and the clients served from them.
Pools are asked in the order of their ranks which of them serves a request.
-/
namespace Cwmp

/-- An address reserved for a client. -/
structure StaticAddress where
  enable : Bool := false
  aliasText : String := ""
  chaddr : Option Mac := none
  yiaddr : Option Ipv4 := none
deriving BEq

instance : Entity StaticAddress where
  path := [.part "Device", .part "DHCPv4", .part "Server", .part "Pool", .row,
    .part "StaticAddress", .row]
  fields := [
    .rw "Enable" .boolean,
    .rw "Alias" (.text 64),
    .rw "Chaddr" .mac,
    .rw "Yiaddr" .ipv4]
  children := []
  parts e :=
    ((e.enable, e.aliasText, e.chaddr, e.yiaddr, ()), ())
  ofParts
    | ((enable, aliasText, chaddr, yiaddr, ()), ()) =>
      { enable, aliasText, chaddr, yiaddr }
  initial := {}
  keys := [{ parameters := ["Chaddr"] }]
  isEnabled e := e.enable

/-- A client that was served. The server creates and deletes these rows. -/
structure DhcpClient where
  aliasText : String := ""
  chaddr : Option Mac := none
  active : Bool := false
  ipAddress : Option Ipv4 := none
  leaseTimeRemaining : Instant := .unknown
deriving BEq

instance : Entity DhcpClient where
  path := [.part "Device", .part "DHCPv4", .part "Server", .part "Pool", .row, .part "Client",
    .row]
  fields := [
    .rw "Alias" (.text 64),
    .ro "Chaddr" .mac,
    .ro "Active" .boolean,
    .ro "IPAddress" .ipv4,
    (Field.ro "LeaseTimeRemaining" .moment).notifying .canDeny]
  children := []
  parts e :=
    ((e.aliasText, e.chaddr, e.active, e.ipAddress, e.leaseTimeRemaining, ()), ())
  ofParts
    | ((aliasText, chaddr, active, ipAddress, leaseTimeRemaining, ()), ()) =>
      { aliasText, chaddr, active, ipAddress, leaseTimeRemaining }
  initial := {}

/-- The mark of an unknown time means that no lease is known yet. -/
instance : Expiring DhcpClient where
  expiresAt e :=
    if e.leaseTimeRemaining = .unknown then none else some e.leaseTimeRemaining

/-- A pool. Its criteria are values with an exclude flag; an empty value leaves a criterion out. -/
structure DhcpPool where
  enable : Bool := false
  status : Status := .disabled
  aliasText : String := ""
  order : UInt32 := 1
  interface : String := ""
  vendorClassId : String := ""
  vendorClassIdExclude : Bool := false
  vendorClassIdMode : VendorMode := .exact
  clientId : String := ""
  clientIdExclude : Bool := false
  userClassId : String := ""
  userClassIdExclude : Bool := false
  chaddr : Option Mac := none
  chaddrMask : Option Mac := none
  chaddrExclude : Bool := false
  minAddress : Option Ipv4 := none
  maxAddress : Option Ipv4 := none
  reservedAddresses : List String := []
  subnetMask : Option Ipv4 := none
  dnsServers : List String := []
  domainName : String := ""
  ipRouters : List String := []
  /-- In seconds; `-1` is an infinite lease. -/
  leaseTime : Int32 := 86400
  staticAddresses : Table StaticAddress := .empty
  clients : Table DhcpClient := .empty
deriving BEq

instance : Entity DhcpPool where
  path := [.part "Device", .part "DHCPv4", .part "Server", .part "Pool", .row]
  fields := [
    .rw "Enable" .boolean,
    .ro "Status" (.choice Status),
    .rw "Alias" (.text 64),
    .rw "Order" (.unsigned 1 4294967295),
    .rw "Interface" (.text 256),
    .rw "VendorClassID" (.text 255),
    .rw "VendorClassIDExclude" .boolean,
    .rw "VendorClassIDMode" (.choice VendorMode),
    .rw "ClientID" (.text 255),
    .rw "ClientIDExclude" .boolean,
    .rw "UserClassID" (.text 255),
    .rw "UserClassIDExclude" .boolean,
    .rw "Chaddr" .mac,
    .rw "ChaddrMask" .mac,
    .rw "ChaddrExclude" .boolean,
    .rw "MinAddress" .ipv4,
    .rw "MaxAddress" .ipv4,
    .rw "ReservedAddresses" (.list 512),
    .rw "SubnetMask" .ipv4,
    .rw "DNSServers" (.list 64),
    .rw "DomainName" (.text 64),
    .rw "IPRouters" (.list 64),
    .rw "LeaseTime" (.int (-1) 2147483647)]
  children := [⟨"StaticAddress", Table StaticAddress⟩, ⟨"Client", Table DhcpClient⟩]
  parts e :=
    ((e.enable, e.status, e.aliasText, e.order, e.interface, e.vendorClassId,
      e.vendorClassIdExclude, e.vendorClassIdMode, e.clientId, e.clientIdExclude, e.userClassId,
      e.userClassIdExclude, e.chaddr, e.chaddrMask, e.chaddrExclude, e.minAddress, e.maxAddress,
      e.reservedAddresses, e.subnetMask, e.dnsServers, e.domainName, e.ipRouters, e.leaseTime, ()),
      (e.staticAddresses, e.clients, ()))
  ofParts
    | ((enable, status, aliasText, order, interface, vendorClassId, vendorClassIdExclude,
      vendorClassIdMode, clientId, clientIdExclude, userClassId, userClassIdExclude, chaddr,
      chaddrMask, chaddrExclude, minAddress, maxAddress, reservedAddresses, subnetMask,
      dnsServers, domainName, ipRouters, leaseTime, ()), (staticAddresses, clients, ())) =>
      { enable, status, aliasText, order, interface, vendorClassId, vendorClassIdExclude,
        vendorClassIdMode, clientId, clientIdExclude, userClassId, userClassIdExclude, chaddr,
        chaddrMask, chaddrExclude, minAddress, maxAddress, reservedAddresses, subnetMask,
        dnsServers, domainName, ipRouters, leaseTime, staticAddresses, clients }
  initial := {}

instance : Ranked DhcpPool where
  rankName := "Order"
  rank e := e.order
  withRank e n := { e with order := n }
  put_rankName e n := by
    change Except.map _ (Except.map _ (Except.map _ (Except.map _ (Except.map _
      ((Shape.unsigned 1 4294967295).store _))))) = _
    rw [Shape.store_unsigned_toNat 1 4294967295 (Eq.refl true)]
    rfl

instance : Classifier DhcpPool DhcpRequest where
  applies e r :=
    e.enable &&
    (Criterion.text e.interface false).holds (some r.interface) &&
    (Criterion.textBy e.vendorClassIdMode.holds e.vendorClassId e.vendorClassIdExclude).holds
      r.vendorClassId &&
    (Criterion.text e.clientId e.clientIdExclude).holds r.clientId &&
    (Criterion.text e.userClassId e.userClassIdExclude).holds r.userClassId &&
    (Criterion.masked e.chaddr e.chaddrMask e.chaddrExclude).holds (some r.chaddr)

end Cwmp
