import Cwmp.Table.Change
import Cwmp.Table.Codec

/-! # MQTT clients

The connections to message brokers and the topics to which they subscribe.
-/
namespace Cwmp

inductive ClientStatus
  | connecting
  | connected
  | disconnected
  | errorMisconfigured
  | errorBrokerUnreachable
  | error
deriving DecidableEq, Repr

instance : Vocabulary ClientStatus where
  label := "ClientStatus"
  all := [.connecting, .connected, .disconnected, .errorMisconfigured, .errorBrokerUnreachable,
    .error]
  word
    | .connecting => "Connecting"
    | .connected => "Connected"
    | .disconnected => "Disconnected"
    | .errorMisconfigured => "Error_Misconfigured"
    | .errorBrokerUnreachable => "Error_BrokerUnreachable"
    | .error => "Error"
  mem_all a := by cases a <;> decide
  word_injective {a b} h := by revert h; cases a <;> cases b <;> decide

inductive ProtocolVersion
  | v31
  | v311
  | v50
deriving DecidableEq, Repr

instance : Vocabulary ProtocolVersion where
  label := "ProtocolVersion"
  all := [.v31, .v311, .v50]
  word
    | .v31 => "3.1"
    | .v311 => "3.1.1"
    | .v50 => "5.0"
  mem_all a := by cases a <;> decide
  word_injective {a b} h := by revert h; cases a <;> cases b <;> decide

inductive TransportProtocol
  | tcp
  | tls
  | webSocket
  | webSocketTls
deriving DecidableEq, Repr

instance : Vocabulary TransportProtocol where
  label := "TransportProtocol"
  all := [.tcp, .tls, .webSocket, .webSocketTls]
  word
    | .tcp => "TCP/IP"
    | .tls => "TLS"
    | .webSocket => "WebSocket"
    | .webSocketTls => "WebSocketTLS"
  mem_all a := by cases a <;> decide
  word_injective {a b} h := by revert h; cases a <;> cases b <;> decide

inductive SubscriptionStatus
  | unsubscribed
  | subscribed
  | subscribing
  | unsubscribing
  | error
deriving DecidableEq, Repr

instance : Vocabulary SubscriptionStatus where
  label := "SubscriptionStatus"
  all := [.unsubscribed, .subscribed, .subscribing, .unsubscribing, .error]
  word
    | .unsubscribed => "Unsubscribed"
    | .subscribed => "Subscribed"
    | .subscribing => "Subscribing"
    | .unsubscribing => "Unsubscribing"
    | .error => "Error"
  mem_all a := by cases a <;> decide
  word_injective {a b} h := by revert h; cases a <;> cases b <;> decide

/-- Open while a will is in use. -/
def willEnabled : List Gate :=
  [⟨"WillEnable", ["true"]⟩]

structure Subscription where
  enable : Bool := false
  status : SubscriptionStatus := .unsubscribed
  aliasText : String := ""
  topic : String := ""
  qos : UInt32 := 0
deriving BEq

instance : Entity Subscription where
  path := [.part "Device", .part "MQTT", .part "Client", .row, .part "Subscription", .row]
  fields := [
    .rw "Enable" .boolean,
    .ro "Status" (.choice SubscriptionStatus),
    .rw "Alias" (.text 64),
    .rw "Topic" (.text 65535),
    .rw "QoS" (.unsigned 0 2)]
  children := []
  parts e :=
    ((e.enable, e.status, e.aliasText, e.topic, e.qos, ()), ())
  ofParts
    | ((enable, status, aliasText, topic, qos, ()), ()) =>
      { enable, status, aliasText, topic, qos }
  initial := {}
  keys := [{ parameters := ["Topic"] }]
  isEnabled e := e.enable

/-- A client of a broker. The will is in use while it is enabled. -/
structure MqttClient where
  enable : Bool := false
  status : ClientStatus := .disconnected
  aliasText : String := ""
  name : String := ""
  clientId : String := ""
  username : String := ""
  password : String := ""
  transportProtocol : TransportProtocol := .tcp
  protocolVersion : ProtocolVersion := .v31
  cleanSession : Bool := true
  brokerAddress : String := ""
  brokerPort : UInt32 := 1883
  /-- In seconds. -/
  keepAliveTime : UInt32 := 60
  willEnable : Bool := false
  willTopic : String := ""
  willValue : String := ""
  willQos : UInt32 := 0
  willRetain : Bool := false
  subscriptions : Table Subscription := .empty
deriving BEq

instance : Entity MqttClient where
  path := [.part "Device", .part "MQTT", .part "Client", .row]
  fields := [
    .rw "Enable" .boolean,
    (Field.ro "Status" (.choice ClientStatus)).notifying .forceDefaultEnabled,
    .rw "Alias" (.text 64),
    .rw "Name" (.text 64),
    .rw "ClientID" (.text 65535),
    .rw "Username" (.text 256),
    (Field.rw "Password" (.text 256)).hidden,
    .rw "TransportProtocol" (.choice TransportProtocol),
    .rw "ProtocolVersion" (.choice ProtocolVersion),
    .rw "CleanSession" .boolean,
    .rw "BrokerAddress" (.text 256),
    .rw "BrokerPort" (.unsigned 1 65535),
    .rw "KeepAliveTime" (.unsigned 0 4294967295),
    .rw "WillEnable" .boolean,
    (Field.rw "WillTopic" (.text 65535)).gated willEnabled,
    (Field.rw "WillValue" (.text 65535)).gated willEnabled,
    (Field.rw "WillQoS" (.unsigned 0 2)).gated willEnabled,
    (Field.rw "WillRetain" .boolean).gated willEnabled]
  children := [⟨"Subscription", Table Subscription⟩]
  parts e :=
    ((e.enable, e.status, e.aliasText, e.name, e.clientId, e.username, e.password,
      e.transportProtocol, e.protocolVersion, e.cleanSession, e.brokerAddress, e.brokerPort,
      e.keepAliveTime, e.willEnable, e.willTopic, e.willValue, e.willQos, e.willRetain, ()),
      (e.subscriptions, ()))
  ofParts
    | ((enable, status, aliasText, name, clientId, username, password, transportProtocol,
      protocolVersion, cleanSession, brokerAddress, brokerPort, keepAliveTime, willEnable,
      willTopic, willValue, willQos, willRetain, ()), (subscriptions, ())) =>
      { enable, status, aliasText, name, clientId, username, password, transportProtocol,
        protocolVersion, cleanSession, brokerAddress, brokerPort, keepAliveTime, willEnable,
        willTopic, willValue, willQos, willRetain, subscriptions }
  initial := {}

end Cwmp
