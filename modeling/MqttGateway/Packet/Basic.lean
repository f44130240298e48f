import MqttGateway.Text.Utf8
/-!
# Control packets

The packets a client and a broker exchange. Those whose fields the gateway reads or changes are
taken apart; any other is kept as the octets of its frame.
-/
namespace MqttGateway

inductive PacketKind
  | connect | connack | publish | puback | pubrec | pubrel | pubcomp
  | subscribe | suback | unsubscribe | unsuback | pingreq | pingresp | disconnect
  deriving DecidableEq, Repr

namespace PacketKind

def all : List PacketKind :=
  [.connect, .connack, .publish, .puback, .pubrec, .pubrel, .pubcomp,
   .subscribe, .suback, .unsubscribe, .unsuback, .pingreq, .pingresp, .disconnect]

def name : PacketKind → String
  | .connect => "CONNECT"
  | .connack => "CONNACK"
  | .publish => "PUBLISH"
  | .puback => "PUBACK"
  | .pubrec => "PUBREC"
  | .pubrel => "PUBREL"
  | .pubcomp => "PUBCOMP"
  | .subscribe => "SUBSCRIBE"
  | .suback => "SUBACK"
  | .unsubscribe => "UNSUBSCRIBE"
  | .unsuback => "UNSUBACK"
  | .pingreq => "PINGREQ"
  | .pingresp => "PINGRESP"
  | .disconnect => "DISCONNECT"

/-- The number in the upper half of a frame's first octet. -/
def code : PacketKind → Nat
  | .connect => 1
  | .connack => 2
  | .publish => 3
  | .puback => 4
  | .pubrec => 5
  | .pubrel => 6
  | .pubcomp => 7
  | .subscribe => 8
  | .suback => 9
  | .unsubscribe => 10
  | .unsuback => 11
  | .pingreq => 12
  | .pingresp => 13
  | .disconnect => 14

def ofCode? (n : Nat) : Option PacketKind :=
  all.find? (·.code == n)

def ofName? (s : String) : Option PacketKind :=
  all.find? (·.name == s)

end PacketKind

structure Will where
  topic : String
  payload : Octets
  qos : UInt8
  retain : Bool
  deriving DecidableEq, Repr

structure Connect where
  level : UInt8
  clientId : String
  cleanSession : Bool
  keepAlive : UInt16
  username : Option String
  password : Option Octets
  will : Option Will
  deriving DecidableEq, Repr

structure Publish where
  topic : String
  payload : Octets
  qos : UInt8
  retain : Bool
  dup : Bool
  packetId : Option UInt16
  deriving DecidableEq, Repr

structure Subscription where
  filter : String
  qos : UInt8
  deriving DecidableEq, Repr

structure Subscribe where
  packetId : UInt16
  subscriptions : List Subscription
  deriving DecidableEq, Repr

structure Unsubscribe where
  packetId : UInt16
  filters : List String
  deriving DecidableEq, Repr

inductive Packet
  | connect (fields : Connect)
  | publish (fields : Publish)
  | subscribe (fields : Subscribe)
  | unsubscribe (fields : Unsubscribe)
  | pingReq
  | pingResp
  | disconnect
  | other (kind : PacketKind) (octets : Octets)
  deriving DecidableEq, Repr

def Packet.kind : Packet → PacketKind
  | .connect _ => .connect
  | .publish _ => .publish
  | .subscribe _ => .subscribe
  | .unsubscribe _ => .unsubscribe
  | .pingReq => .pingreq
  | .pingResp => .pingresp
  | .disconnect => .disconnect
  | .other kind _ => kind

namespace Subscribe

def filters (s : Subscribe) : List String :=
  s.subscriptions.map (·.filter)

/-- The service level asked for last, which filters beyond the present ones take on. -/
def lastQos (s : Subscribe) : UInt8 :=
  (s.subscriptions.getLast?.map (·.qos)).getD 0

/-- Puts `filters` in place of the present ones, each with the service level at its position. -/
def withFilters (s : Subscribe) (filters : List String) : Subscribe :=
  { s with
    subscriptions := filters.mapIdx fun i filter =>
      ⟨filter, (s.subscriptions[i]?.map (·.qos)).getD s.lastQos⟩ }

end Subscribe
end MqttGateway
