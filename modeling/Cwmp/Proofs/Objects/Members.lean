import Cwmp.ObjectKind

/-! # Objects in documents, member by member

The structure of an object names its members once more, this time from the side of documents: every
member with the field that it holds, in the form that the type of the field takes by itself. The
form in which objects are written by their descriptions is the same.
-/
namespace Cwmp

class Written (α : Type) where
  doc : α → Doc

namespace Written

instance : Written Bool := ⟨.boolean⟩

instance : Written Int32 := ⟨fun i => .integer i.toInt⟩

instance : Written UInt32 := ⟨fun n => .integer n.toNat⟩

instance : Written String := ⟨.text⟩

instance {V : Type} [Vocabulary V] : Written V := ⟨fun a => .text (Vocabulary.word a)⟩

instance : Written Instant := ⟨fun t => .text (Rfc3339.writeExact t)⟩

/-- An address that is not set is written as the empty text. -/
instance : Written (Option Ipv4) := ⟨fun a => .text (a.elim "" Ipv4.write)⟩

instance : Written (Option Mac) := ⟨fun a => .text (a.elim "" Mac.write)⟩

instance : Written (List String) := ⟨fun items => .text (Text.commaText items)⟩

instance {E : Type} [Entity E] : Written (Table E) := ⟨Table.encode⟩

instance {E : Type} [Entity E] [Ranked E] : Written (Ranking E) := ⟨Ranking.encode⟩

end Written

def member {α : Type} [Written α] (name : String) (a : α) : Key × Doc :=
  (.name name, Written.doc a)

/-- An object whose members are listed with the fields that they hold. -/
class Listed (E : Type) [Entity E] where
  members : E → List (Key × Doc)
  encode_eq : ∀ e : E, Entity.encode e = .table (members e) := by intro _; rfl

namespace Listed

instance : Listed AudioOutput where
  members e := [
    member "Enable" e.enable, member "Status" e.status, member "Alias" e.aliasText,
    member "Name" e.name, member "AudioFormat" e.audioFormat, member "AudioLevel" e.audioLevel,
    member "CancelMute" e.cancelMute, member "SCARTs" e.scartReferences]

instance : Listed PortMapping where
  members e := [
    member "PortMappingEnabled" e.enabled, member "Alias" e.aliasText,
    member "PortMappingLeaseDuration" e.leaseDuration, member "RemoteHost" e.remoteHost,
    member "ExternalPort" e.externalPort, member "ExternalPortEndRange" e.externalPortEndRange,
    member "InternalPort" e.internalPort, member "PortMappingProtocol" e.protocol,
    member "InternalClient" e.internalClient, member "PortMappingDescription" e.description]

instance : Listed StaticAddress where
  members e := [
    member "Enable" e.enable, member "Alias" e.aliasText, member "Chaddr" e.chaddr,
    member "Yiaddr" e.yiaddr]

instance : Listed DhcpClient where
  members e := [
    member "Alias" e.aliasText, member "Chaddr" e.chaddr, member "Active" e.active,
    member "IPAddress" e.ipAddress, member "LeaseTimeRemaining" e.leaseTimeRemaining]

instance : Listed DhcpPool where
  members e := [
    member "Enable" e.enable, member "Status" e.status, member "Alias" e.aliasText,
    member "Order" e.order, member "Interface" e.interface, member "VendorClassID" e.vendorClassId,
    member "VendorClassIDExclude" e.vendorClassIdExclude,
    member "VendorClassIDMode" e.vendorClassIdMode, member "ClientID" e.clientId,
    member "ClientIDExclude" e.clientIdExclude, member "UserClassID" e.userClassId,
    member "UserClassIDExclude" e.userClassIdExclude, member "Chaddr" e.chaddr,
    member "ChaddrMask" e.chaddrMask, member "ChaddrExclude" e.chaddrExclude,
    member "MinAddress" e.minAddress, member "MaxAddress" e.maxAddress,
    member "ReservedAddresses" e.reservedAddresses, member "SubnetMask" e.subnetMask,
    member "DNSServers" e.dnsServers, member "DomainName" e.domainName,
    member "IPRouters" e.ipRouters, member "LeaseTime" e.leaseTime,
    member "StaticAddress" e.staticAddresses, member "Client" e.clients]

instance : Listed ConditionalPool where
  members e := [
    member "Enable" e.enable, member "Status" e.status, member "Alias" e.aliasText,
    member "PoolOrder" e.poolOrder, member "SourceInterface" e.sourceInterface,
    member "VendorClassID" e.vendorClassId, member "VendorClassIDExclude" e.vendorClassIdExclude,
    member "VendorClassIDMode" e.vendorClassIdMode, member "ClientID" e.clientId,
    member "ClientIDExclude" e.clientIdExclude, member "UserClassID" e.userClassId,
    member "UserClassIDExclude" e.userClassIdExclude, member "Chaddr" e.chaddr,
    member "ChaddrMask" e.chaddrMask, member "ChaddrExclude" e.chaddrExclude,
    member "LocallyServed" e.locallyServed, member "MinAddress" e.minAddress,
    member "MaxAddress" e.maxAddress, member "ReservedAddresses" e.reservedAddresses,
    member "SubnetMask" e.subnetMask, member "DNSServers" e.dnsServers,
    member "DomainName" e.domainName, member "IPRouters" e.ipRouters,
    member "DHCPLeaseTime" e.dhcpLeaseTime, member "UseAllocatedWAN" e.useAllocatedWan,
    member "AssociatedConnection" e.associatedConnection,
    member "DHCPServerIPAddress" e.dhcpServerIpAddress,
    member "PassthroughLease" e.passthroughLease,
    member "PassthroughMACAddress" e.passthroughMacAddress]

instance : Listed FirewallRule where
  members e := [
    member "Enable" e.enable, member "Status" e.status, member "Order" e.order,
    member "Alias" e.aliasText, member "Description" e.description, member "Target" e.target,
    member "TargetChain" e.targetChain, member "Log" e.log, member "CreationDate" e.creationDate,
    member "ExpiryDate" e.expiryDate, member "SourceInterface" e.sourceInterface,
    member "SourceInterfaceExclude" e.sourceInterfaceExclude, member "DestIP" e.destIp,
    member "DestMask" e.destMask, member "DestIPExclude" e.destIpExclude,
    member "SourceIP" e.sourceIp, member "SourceMask" e.sourceMask,
    member "SourceIPExclude" e.sourceIpExclude, member "Protocol" e.protocol,
    member "ProtocolExclude" e.protocolExclude, member "DestPort" e.destPort,
    member "DestPortRangeMax" e.destPortRangeMax, member "DestPortExclude" e.destPortExclude,
    member "SourcePort" e.sourcePort, member "SourcePortRangeMax" e.sourcePortRangeMax,
    member "SourcePortExclude" e.sourcePortExclude, member "DSCP" e.dscp,
    member "DSCPExclude" e.dscpExclude, member "IPVersion" e.ipVersion]

instance : Listed Chain where
  members e := [
    member "Enable" e.enable, member "Alias" e.aliasText, member "Name" e.name,
    member "Creator" e.creator, member "Rule" e.rules]

instance : Listed Firewall where
  members e := [
    member "Enable" e.enable, member "Config" e.config, member "Version" e.version,
    member "LastChange" e.lastChange, member "Chain" e.chains]

instance : Listed Ipv4Entry where
  members e := [
    member "Enable" e.enable, member "Status" e.status, member "Alias" e.aliasText,
    member "IPAddress" e.ipAddress, member "SubnetMask" e.subnetMask,
    member "AddressingType" e.addressingType]

instance : Listed Ipv6Prefix where
  members e := [
    member "Enable" e.enable, member "Status" e.status, member "PrefixStatus" e.prefixStatus,
    member "Alias" e.aliasText, member "Prefix" e.value, member "Origin" e.origin,
    member "StaticType" e.staticType, member "ParentPrefix" e.parentPrefix,
    member "ChildPrefixBits" e.childPrefixBits, member "OnLink" e.onLink,
    member "Autonomous" e.autonomous, member "PreferredLifetime" e.preferredLifetime,
    member "ValidLifetime" e.validLifetime]

instance : Listed IpInterface where
  members e := [
    member "Enable" e.enable, member "IPv4Enable" e.ipv4Enable, member "IPv6Enable" e.ipv6Enable,
    member "Status" e.status, member "Alias" e.aliasText, member "Name" e.name,
    member "LowerLayers" e.lowerLayers, member "Type" e.interfaceType, member "Loopback" e.loopback,
    member "MaxMTUSize" e.maxMtuSize, member "IPv4Address" e.ipv4Addresses,
    member "IPv6Prefix" e.ipv6Prefixes]

instance : Listed Subscription where
  members e := [
    member "Enable" e.enable, member "Status" e.status, member "Alias" e.aliasText,
    member "Topic" e.topic, member "QoS" e.qos]

instance : Listed MqttClient where
  members e := [
    member "Enable" e.enable, member "Status" e.status, member "Alias" e.aliasText,
    member "Name" e.name, member "ClientID" e.clientId, member "Username" e.username,
    member "Password" e.password, member "TransportProtocol" e.transportProtocol,
    member "ProtocolVersion" e.protocolVersion, member "CleanSession" e.cleanSession,
    member "BrokerAddress" e.brokerAddress, member "BrokerPort" e.brokerPort,
    member "KeepAliveTime" e.keepAliveTime, member "WillEnable" e.willEnable,
    member "WillTopic" e.willTopic, member "WillValue" e.willValue, member "WillQoS" e.willQos,
    member "WillRetain" e.willRetain, member "Subscription" e.subscriptions]

end Listed
end Cwmp
