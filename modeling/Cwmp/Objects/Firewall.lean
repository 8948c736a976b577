import Cwmp.Match.Criterion
import Cwmp.Objects.Status
import Cwmp.Table.Ranking

/-! # The firewall

The firewall, its chains of rules and the rules, which are asked in the order of their ranks which
of them applies to a packet.
-/
namespace Cwmp

inductive FirewallLevel
  | high
  | low
  | off
  /-- As the rules of the chains say. -/
  | advanced
deriving DecidableEq, Repr

instance : Vocabulary FirewallLevel where
  label := "FirewallLevel"
  all := [.high, .low, .off, .advanced]
  word
    | .high => "High"
    | .low => "Low"
    | .off => "Off"
    | .advanced => "Advanced"
  mem_all a := by cases a <;> decide
  word_injective {a b} h := by revert h; cases a <;> cases b <;> decide

inductive ChainCreator
  | defaults
  | portMapping
  | ipv6FirewallControl
  | controller
  | userInterface
  | other
deriving DecidableEq, Repr

instance : Vocabulary ChainCreator where
  label := "ChainCreator"
  all := [.defaults, .portMapping, .ipv6FirewallControl, .controller, .userInterface, .other]
  word
    | .defaults => "Defaults"
    | .portMapping => "PortMapping"
    | .ipv6FirewallControl => "WANIPv6FirewallControl"
    | .controller => "ACS"
    | .userInterface => "UserInterface"
    | .other => "Other"
  mem_all a := by cases a <;> decide
  word_injective {a b} h := by revert h; cases a <;> cases b <;> decide

/-- What becomes of a packet to which a rule applies. -/
inductive RuleTarget
  | drop
  | accept
  | reject
  | return
  /-- It goes on in another chain. -/
  | targetChain
deriving DecidableEq, Repr

instance : Vocabulary RuleTarget where
  label := "RuleTarget"
  all := [.drop, .accept, .reject, .return, .targetChain]
  word
    | .drop => "Drop"
    | .accept => "Accept"
    | .reject => "Reject"
    | .return => "Return"
    | .targetChain => "TargetChain"
  mem_all a := by cases a <;> decide
  word_injective {a b} h := by revert h; cases a <;> cases b <;> decide

/-- Open while packets are sent on to another chain. -/
def toChain : List Gate :=
  [⟨"Target", ["TargetChain"]⟩]

/-- A rule. A number of `-1` and an empty text or address leave a criterion out. -/
structure FirewallRule where
  enable : Bool := false
  status : Status := .disabled
  order : UInt32 := 1
  aliasText : String := ""
  description : String := ""
  target : RuleTarget := .drop
  targetChain : String := ""
  log : Bool := false
  creationDate : Instant := .unknown
  expiryDate : Instant := .infinite
  sourceInterface : String := ""
  sourceInterfaceExclude : Bool := false
  destIp : Option Ipv4 := none
  destMask : Option Ipv4 := none
  destIpExclude : Bool := false
  sourceIp : Option Ipv4 := none
  sourceMask : Option Ipv4 := none
  sourceIpExclude : Bool := false
  protocol : Int32 := -1
  protocolExclude : Bool := false
  destPort : Int32 := -1
  destPortRangeMax : Int32 := -1
  destPortExclude : Bool := false
  sourcePort : Int32 := -1
  sourcePortRangeMax : Int32 := -1
  sourcePortExclude : Bool := false
  dscp : Int32 := -1
  dscpExclude : Bool := false
  ipVersion : Int32 := -1
deriving BEq

instance : Entity FirewallRule where
  path := [.part "Device", .part "Firewall", .part "Chain", .row, .part "Rule", .row]
  fields := [
    .rw "Enable" .boolean,
    (Field.ro "Status" (.choice Status)).notifying .forceDefaultEnabled,
    .rw "Order" (.unsigned 1 4294967295),
    .rw "Alias" (.text 64),
    .rw "Description" (.text 256),
    .rw "Target" (.choice RuleTarget),
    (Field.rw "TargetChain" (.text 256)).gated toChain,
    .rw "Log" .boolean,
    .ro "CreationDate" .moment,
    .rw "ExpiryDate" .moment,
    .rw "SourceInterface" (.text 256),
    .rw "SourceInterfaceExclude" .boolean,
    .rw "DestIP" .ipv4,
    .rw "DestMask" .ipv4,
    .rw "DestIPExclude" .boolean,
    .rw "SourceIP" .ipv4,
    .rw "SourceMask" .ipv4,
    .rw "SourceIPExclude" .boolean,
    .rw "Protocol" (.int (-1) 255),
    .rw "ProtocolExclude" .boolean,
    .rw "DestPort" (.int (-1) 65535),
    .rw "DestPortRangeMax" (.int (-1) 65535),
    .rw "DestPortExclude" .boolean,
    .rw "SourcePort" (.int (-1) 65535),
    .rw "SourcePortRangeMax" (.int (-1) 65535),
    .rw "SourcePortExclude" .boolean,
    .rw "DSCP" (.int (-1) 63),
    .rw "DSCPExclude" .boolean,
    .rw "IPVersion" (.int (-1) 15)]
  children := []
  parts e :=
    ((e.enable, e.status, e.order, e.aliasText, e.description, e.target, e.targetChain, e.log,
      e.creationDate, e.expiryDate, e.sourceInterface, e.sourceInterfaceExclude, e.destIp,
      e.destMask, e.destIpExclude, e.sourceIp, e.sourceMask, e.sourceIpExclude, e.protocol,
      e.protocolExclude, e.destPort, e.destPortRangeMax, e.destPortExclude, e.sourcePort,
      e.sourcePortRangeMax, e.sourcePortExclude, e.dscp, e.dscpExclude, e.ipVersion, ()), ())
  ofParts
    | ((enable, status, order, aliasText, description, target, targetChain, log, creationDate,
      expiryDate, sourceInterface, sourceInterfaceExclude, destIp, destMask, destIpExclude,
      sourceIp, sourceMask, sourceIpExclude, protocol, protocolExclude, destPort,
      destPortRangeMax, destPortExclude, sourcePort, sourcePortRangeMax, sourcePortExclude, dscp,
      dscpExclude, ipVersion, ()), ()) =>
      { enable, status, order, aliasText, description, target, targetChain, log, creationDate,
        expiryDate, sourceInterface, sourceInterfaceExclude, destIp, destMask, destIpExclude,
        sourceIp, sourceMask, sourceIpExclude, protocol, protocolExclude, destPort,
        destPortRangeMax, destPortExclude, sourcePort, sourcePortRangeMax, sourcePortExclude,
        dscp, dscpExclude, ipVersion }
  initial := {}

instance : Ranked FirewallRule where
  rankName := "Order"
  rank e := e.order
  withRank e n := { e with order := n }
  put_rankName e n := by
    change Except.map _ (Except.map _ (Except.map _ (Except.map _
      ((Shape.unsigned 1 4294967295).store _)))) = _
    rw [Shape.store_unsigned_toNat 1 4294967295 (Eq.refl true)]
    rfl

/-- The mark of a time that never comes is no expiry date. -/
instance : Expiring FirewallRule where
  expiresAt e := if e.expiryDate = .infinite then none else some e.expiryDate

instance : Classifier FirewallRule Packet where
  applies e p :=
    e.enable && (e.ipVersion == -1 || e.ipVersion == 4) &&
    (Criterion.text e.sourceInterface e.sourceInterfaceExclude).holds p.sourceInterface &&
    (Criterion.masked e.destIp e.destMask e.destIpExclude).holds (some p.destIp) &&
    (Criterion.masked e.sourceIp e.sourceMask e.sourceIpExclude).holds (some p.sourceIp) &&
    (Criterion.numeric e.protocol.toInt e.protocolExclude).holds (some p.protocol.toNat) &&
    (Criterion.port e.destPort.toInt e.destPortRangeMax.toInt e.destPortExclude).holds
      (p.destPort.map fun n => (n.toNat : Int)) &&
    (Criterion.port e.sourcePort.toInt e.sourcePortRangeMax.toInt e.sourcePortExclude).holds
      (p.sourcePort.map fun n => (n.toNat : Int)) &&
    (Criterion.numeric e.dscp.toInt e.dscpExclude).holds (some p.dscp.toNat)

structure Chain where
  enable : Bool := false
  aliasText : String := ""
  name : String := ""
  creator : ChainCreator := .controller
  rules : Ranking FirewallRule := .empty
deriving BEq

instance : Entity Chain where
  path := [.part "Device", .part "Firewall", .part "Chain", .row]
  fields := [
    .rw "Enable" .boolean,
    .rw "Alias" (.text 64),
    .rw "Name" (.text 64),
    .ro "Creator" (.choice ChainCreator)]
  children := [⟨"Rule", Ranking FirewallRule⟩]
  parts e :=
    ((e.enable, e.aliasText, e.name, e.creator, ()), (e.rules, ()))
  ofParts
    | ((enable, aliasText, name, creator, ()), (rules, ())) =>
      { enable, aliasText, name, creator, rules }
  initial := {}

structure Firewall where
  enable : Bool := false
  config : FirewallLevel := .low
  version : String := ""
  lastChange : Instant := .unknown
  chains : Table Chain := .empty
deriving BEq

instance : Entity Firewall where
  path := [.part "Device", .part "Firewall"]
  fields := [
    .rw "Enable" .boolean,
    .rw "Config" (.choice FirewallLevel),
    .ro "Version" (.text 16),
    .ro "LastChange" .moment]
  children := [⟨"Chain", Table Chain⟩]
  parts e :=
    ((e.enable, e.config, e.version, e.lastChange, ()), (e.chains, ()))
  ofParts
    | ((enable, config, version, lastChange, ()), (chains, ())) =>
      { enable, config, version, lastChange, chains }
  initial := {}

end Cwmp
