import MqttGateway.Packet.Fault
import MqttGateway.Packet.Length
/-!
# Encoding packets

The wire form of a packet: its kind and flags, the length of what follows, and its fields. A field
of variable size has at most 65535 octets. Of several reasons for which a packet has no wire form
the first in the order of the checks below is the one reported. The room for a frame is reckoned from
the fields before it is written. A CONNECT is written for level 4 of the protocol, and then relabeled
if it is for level 3.
-/
namespace MqttGateway

namespace Field

def check (field : Field) (octets : Octets) : Except EncodeFault Unit :=
  if 65535 < octets.length then .error (.fieldTooLong field octets.length) else .ok ()

/-- The written form of a field of variable size. -/
def write (octets : Octets) : Octets :=
  Octets.ofUInt16 (UInt16.ofNat octets.length) ++ octets

end Field

namespace Packet

def checkQos (level : UInt8) : Except EncodeFault Unit :=
  if level ≤ 2 then .ok () else .error (.qos level)

def checkId (id : UInt16) : Except EncodeFault Unit :=
  if id = 0 then .error (.packetId id) else .ok ()

def flag (condition : Bool) (mask : UInt8) : UInt8 :=
  if condition then mask else 0

/-- A frame with the given first octet and body. -/
def frame (head : UInt8) (body : Octets) : Octets :=
  head :: RemainingLength.encode body.length ++ body

/-- Writes a frame into the room for a body of `size` octets with its header. -/
def fill (size : Nat) (frame : Octets) : Except EncodeFault Octets :=
  match RemainingLength.width? size with
  | none => .error (.packetTooLong size)
  | some width => if 1 + width + size < frame.length then .error .noRoom else .ok frame

end Packet

namespace Will

def check (w : Will) : Except EncodeFault Unit := do
  Field.willTopic.check (Utf8.encode w.topic)
  Field.willPayload.check w.payload
  Packet.checkQos w.qos

def flags (w : Will) : UInt8 :=
  (0x04 : UInt8) ||| (w.qos <<< 3) ||| Packet.flag w.retain 0x20

def write (w : Will) : Octets :=
  Field.write (Utf8.encode w.topic) ++ Field.write w.payload

def size (w : Will) : Nat :=
  2 + (Utf8.encode w.topic).length + 2 + w.payload.length

end Will

namespace Connect

def check (c : Connect) : Except EncodeFault Unit := do
  Field.clientId.check (Utf8.encode c.clientId)
  if let some username := c.username then Field.username.check (Utf8.encode username)
  if let some password := c.password then Field.password.check password
  if let some will := c.will then will.check

def flags (c : Connect) : UInt8 :=
  Packet.flag c.username.isSome 0x80 ||| Packet.flag c.password.isSome 0x40
    ||| (c.will.map Will.flags).getD 0 ||| Packet.flag c.cleanSession 0x02

/-- Name and level of the protocol as they open a CONNECT. -/
def mqtt : Octets :=
  Field.write (Utf8.encode "MQTT") ++ [4]

/-- The name and the level that the protocol had before. -/
def mqisdp : Octets :=
  Field.write (Utf8.encode "MQIsdp") ++ [3]

/-- What follows the protocol's name and level. -/
def writeFields (c : Connect) : Octets :=
  [c.flags] ++ Octets.ofUInt16 c.keepAlive
    ++ Field.write (Utf8.encode c.clientId)
    ++ (c.will.map Will.write).getD []
    ++ (c.username.map (Field.write ∘ Utf8.encode)).getD []
    ++ (c.password.map Field.write).getD []

def write (c : Connect) : Octets :=
  mqtt ++ c.writeFields

def size (c : Connect) : Nat :=
  mqtt.length + 1 + 2 + 2 + (Utf8.encode c.clientId).length
    + (c.will.map Will.size).getD 0
    + (c.username.map fun username => 2 + (Utf8.encode username).length).getD 0
    + (c.password.map fun password => 2 + password.length).getD 0

/-- Puts the former name and level of the protocol in place of those of a CONNECT. -/
def relabel (frame : Octets) : Except EncodeFault Octets :=
  match frame with
  | [] => .error .relabeling
  | head :: after =>
    match after.dropWhile fun b => 128 ≤ b.toNat with
    | [] => .error .relabeling
    | _ :: body =>
      if mqtt.isPrefixOf body then
        let body := mqisdp ++ body.drop mqtt.length
        match RemainingLength.width? body.length with
        | none => .error (.packetTooLong body.length)
        | some _ => .ok (Packet.frame head body)
      else .error .relabeling

end Connect

namespace Publish

/-- The packet id that goes on the wire: none at service level 0, a nonzero one above. -/
def wireId (p : Publish) : Except EncodeFault (Option UInt16) :=
  match p.packetId with
  | some id =>
    if p.qos = 0 then .ok none
    else if p.qos ≤ 2 then (Packet.checkId id).map fun _ => some id
    else .error (.packetIdMissing p.qos)
  | none => if p.qos = 0 then .ok none else .error (.packetIdMissing p.qos)

def head (p : Publish) : UInt8 :=
  (0x30 : UInt8) ||| Packet.flag p.dup 0x08 ||| (p.qos <<< 1) ||| Packet.flag p.retain 0x01

def write (p : Publish) (id : Option UInt16) : Octets :=
  Field.write (Utf8.encode p.topic) ++ (id.map Octets.ofUInt16).getD [] ++ p.payload

def size (p : Publish) : Nat :=
  2 + (Utf8.encode p.topic).length + (if p.qos = 0 then 0 else 2) + p.payload.length

end Publish

namespace Subscription

def check (s : Subscription) : Except EncodeFault Unit := do
  Field.topicFilter.check (Utf8.encode s.filter)
  Packet.checkQos s.qos

def write (s : Subscription) : Octets :=
  Field.write (Utf8.encode s.filter) ++ [s.qos]

end Subscription

namespace Subscribe

def write (s : Subscribe) : Octets :=
  Octets.ofUInt16 s.packetId ++ s.subscriptions.flatMap Subscription.write

def size (s : Subscribe) : Nat :=
  s.subscriptions.foldr (fun t rest => 2 + (Utf8.encode t.filter).length + 1 + rest) 2

end Subscribe

namespace Unsubscribe

def write (u : Unsubscribe) : Octets :=
  Octets.ofUInt16 u.packetId ++ u.filters.flatMap (Field.write ∘ Utf8.encode)

def size (u : Unsubscribe) : Nat :=
  u.filters.foldr (fun filter rest => 2 + (Utf8.encode filter).length + rest) 2

end Unsubscribe

namespace Packet

def encode : Packet → Except EncodeFault Octets
  | .connect c => do
    c.check
    let octets ← fill c.size (frame 0x10 c.write)
    if c.level = 3 then Connect.relabel octets else return octets
  | .publish p => do
    let id ← p.wireId
    Field.topicName.check (Utf8.encode p.topic)
    fill p.size (frame p.head (p.write id))
  | .subscribe s => do
    s.subscriptions.forM Subscription.check
    checkId s.packetId
    fill s.size (frame 0x82 s.write)
  | .unsubscribe u => do
    u.filters.forM fun filter => Field.topicFilter.check (Utf8.encode filter)
    checkId u.packetId
    fill u.size (frame 0xA2 u.write)
  | .pingReq => fill 0 (frame 0xC0 [])
  | .pingResp => fill 0 (frame 0xD0 [])
  | .disconnect => fill 0 (frame 0xE0 [])
  | .other _ octets => .ok octets

end Packet
end MqttGateway
