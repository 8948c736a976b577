import Cwmp.ObjectKind
import Cwmp.Proofs.Table.Nested

/-! # The objects of the data model are regular

Every object is compared parameter by parameter and then table by table, so that of each only the
tables that it holds have to be told.
-/
namespace Cwmp

open Entity

instance : Regular FirewallRule where
  toNestedAll := inferInstanceAs (NestedAll [])
  initial_allEmpty := trivial

instance : Regular StaticAddress where
  toNestedAll := inferInstanceAs (NestedAll [])
  initial_allEmpty := trivial
  isEnabled_eq _ _ h := congrArg Prod.fst h

instance : Regular DhcpClient where
  toNestedAll := inferInstanceAs (NestedAll [])
  initial_allEmpty := trivial

instance : Regular ConditionalPool where
  toNestedAll := inferInstanceAs (NestedAll [])
  initial_allEmpty := trivial

instance : Regular PortMapping where
  toNestedAll := inferInstanceAs (NestedAll [])
  initial_allEmpty := trivial
  isEnabled_eq _ _ h := congrArg Prod.fst h

instance : Regular Ipv4Entry where
  toNestedAll := inferInstanceAs (NestedAll [])
  initial_allEmpty := trivial

instance : Regular Ipv6Prefix where
  toNestedAll := inferInstanceAs (NestedAll [])
  initial_allEmpty := trivial

instance : Regular Subscription where
  toNestedAll := inferInstanceAs (NestedAll [])
  initial_allEmpty := trivial
  isEnabled_eq _ _ h := congrArg Prod.fst h

instance : Regular AudioOutput where
  toNestedAll := inferInstanceAs (NestedAll [])
  initial_allEmpty := trivial

instance : Regular Chain where
  toNestedAll := inferInstanceAs (NestedAll [⟨"Rule", Ranking FirewallRule⟩])
  initial_allEmpty := ⟨rfl, trivial⟩

instance : Regular Firewall where
  toNestedAll := inferInstanceAs (NestedAll [⟨"Chain", Table Chain⟩])
  initial_allEmpty := ⟨rfl, trivial⟩

instance : Regular DhcpPool where
  toNestedAll := inferInstanceAs (NestedAll [⟨"StaticAddress", Table StaticAddress⟩,
    ⟨"Client", Table DhcpClient⟩])
  initial_allEmpty := ⟨rfl, rfl, trivial⟩

instance : Regular IpInterface where
  toNestedAll := inferInstanceAs (NestedAll [⟨"IPv4Address", Table Ipv4Entry⟩,
    ⟨"IPv6Prefix", Table Ipv6Prefix⟩])
  initial_allEmpty := ⟨rfl, rfl, trivial⟩

instance : Regular MqttClient where
  toNestedAll := inferInstanceAs (NestedAll [⟨"Subscription", Table Subscription⟩])
  initial_allEmpty := ⟨rfl, trivial⟩

end Cwmp
