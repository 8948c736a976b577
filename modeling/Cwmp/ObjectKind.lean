import Cwmp.Objects.AudioOutput
import Cwmp.Objects.ConditionalPool
import Cwmp.Objects.Dhcp
import Cwmp.Objects.Firewall
import Cwmp.Objects.IpInterface
import Cwmp.Objects.Mqtt
import Cwmp.Objects.PortMapping
import Cwmp.Table.Collection

/-! # Kinds of objects

The objects that stand in tables, by the names that users know them by.
-/
namespace Cwmp

/-- An object that stands in tables. -/
inductive ObjectKind
  | firewallChain
  | firewallRule
  | dhcpPool
  | dhcpStaticAddress
  | dhcpClient
  | conditionalPool
  | portMapping
  | ipInterface
  | ipv4Address
  | ipv6Prefix
  | mqttClient
  | mqttSubscription
  | audioOutput
deriving DecidableEq, Repr

namespace ObjectKind

def all : List ObjectKind :=
  [firewallChain, firewallRule, dhcpPool, dhcpStaticAddress, dhcpClient, conditionalPool,
    portMapping, ipInterface, ipv4Address, ipv6Prefix, mqttClient, mqttSubscription, audioOutput]

def name : ObjectKind → String
  | firewallChain => "firewall-chain"
  | firewallRule => "firewall-rule"
  | dhcpPool => "dhcp-pool"
  | dhcpStaticAddress => "dhcp-static-address"
  | dhcpClient => "dhcp-client"
  | conditionalPool => "conditional-pool"
  | portMapping => "port-mapping"
  | ipInterface => "ip-interface"
  | ipv4Address => "ipv4-address"
  | ipv6Prefix => "ipv6-prefix"
  | mqttClient => "mqtt-client"
  | mqttSubscription => "mqtt-subscription"
  | audioOutput => "audio-output"

def shortName? : ObjectKind → Option String
  | firewallChain => some "chain"
  | firewallRule => some "rule"
  | _ => none

def ofName? (s : String) : Option ObjectKind :=
  all.find? fun o => o.name == s || o.shortName? == some s

def collection : ObjectKind → Collection
  | firewallChain => .plain Chain
  | firewallRule => .ranked FirewallRule
  | dhcpPool => .ranked DhcpPool
  | dhcpStaticAddress => .plain StaticAddress
  | dhcpClient => .plain DhcpClient
  | conditionalPool => .ranked ConditionalPool
  | portMapping => .plain PortMapping
  | ipInterface => .plain IpInterface
  | ipv4Address => .plain Ipv4Entry
  | ipv6Prefix => .plain Ipv6Prefix
  | mqttClient => .plain MqttClient
  | mqttSubscription => .plain Subscription
  | audioOutput => .plain AudioOutput

end ObjectKind
end Cwmp
