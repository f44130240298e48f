import MqttGateway.Packet.Fault
import MqttGateway.Packet.Length
/-!
# Decoding packets

A packet is read field by field from the octets after its frame's header. The reader sees all of
the data it was given: fields of fixed size are read from whatever follows, even beyond the
declared end of the frame, and only a list of topics and a payload stop there. Octets left over
are ignored.
-/
namespace MqttGateway

/-- A step of reading: what was read and the octets still ahead. -/
abbrev PacketReader := StateT Octets (Except Halt)

namespace PacketReader

def refuse {α : Type} (fault : DecodeFault) : PacketReader α :=
  fun _ => .error (.error (.malformed fault))

def octet : PacketReader UInt8
  | [] => .error .overrun
  | b :: rest => .ok (b, rest)

def uint16 : PacketReader UInt16 := do
  let hi ← octet
  let lo ← octet
  return Octets.toUInt16 hi lo

def packetId : PacketReader UInt16 := do
  let id ← uint16
  if id = 0 then refuse .packetId else return id

/-- A field with its length in two octets in front. -/
def field : PacketReader Octets
  | hi :: lo :: rest =>
    let n := (Octets.toUInt16 hi lo).toNat
    if rest.length < n then .error (.error (.malformed .length)) else .ok (rest.take n, rest.drop n)
  | _ => .error (.error (.malformed .length))

def text : PacketReader String := do
  match Utf8.decode (← field) with
  | .ok s => return s
  | .error fault => refuse (.text fault)

def qos (level : UInt8) : PacketReader UInt8 :=
  if level ≤ 2 then pure level else refuse (.qos level)

/-- Reads one item after another until no more than `stop` octets are ahead. -/
def untilLeft {α : Type} (item : PacketReader α) (stop : Nat) (bs : Octets) :
    Except Halt (List α × Octets) :=
  if bs.length ≤ stop then .ok ([], bs)
  else
    match item bs with
    | .error halt => .error halt
    | .ok (a, rest) =>
      if _h : rest.length < bs.length then do
        let (as, rest) ← untilLeft item stop rest
        return (a :: as, rest)
      else .ok ([a], rest)
  termination_by bs.length

end PacketReader

namespace Packet

open PacketReader

/-- The level of the protocol whose name and level a CONNECT carries. -/
def protocol (name : String) (level : UInt8) : PacketReader UInt8 :=
  if (name = "MQTT" ∧ level = 4) ∨ (name = "MQIsdp" ∧ level = 3) then pure level
  else refuse (.protocol name level)

def will (flags : UInt8) : PacketReader Will := do
  let topic ← text
  let payload ← field
  let level ← qos ((flags >>> 3) &&& 3)
  return ⟨topic, payload, level, flags &&& 0x20 ≠ 0⟩

def whenSet {α : Type} (flags mask : UInt8) (item : PacketReader α) : PacketReader (Option α) :=
  if flags &&& mask ≠ 0 then some <$> item else pure none

def readConnect : PacketReader Connect := do
  let name ← text
  let level ← protocol name (← octet)
  let flags ← octet
  let keepAlive ← uint16
  let clientId ← text
  let will ← whenSet flags 0x04 (will flags)
  let username ← whenSet flags 0x80 text
  let password ← whenSet flags 0x40 field
  return ⟨level, clientId, flags &&& 0x02 ≠ 0, keepAlive, username, password, will⟩

/-- The fields of a PUBLISH in front of its payload. -/
def publishFields (head : UInt8) : PacketReader (String × UInt8 × Option UInt16) := do
  let topic ← text
  let level := (head >>> 1) &&& 3
  let packetId ← if level = 0 then pure none else some <$> packetId
  return (topic, level, packetId)

/-- The payload is what the frame's declared length leaves after the topic and the packet id. -/
def readPublish (head : UInt8) (length : Nat) : PacketReader Publish := fun bs => do
  let ((topic, level, packetId), rest) ← publishFields head bs
  let used := bs.length - rest.length
  if length < used then .error .overrun
  else
    let payload := rest.take (length - used)
    let packet := ⟨topic, payload, level, head &&& 1 ≠ 0, head &&& 8 ≠ 0, packetId⟩
    .ok (packet, rest.drop (length - used))

def subscription : PacketReader Subscription := do
  let filter ← text
  let level ← qos (← octet)
  return ⟨filter, level⟩

/-- Reads items up to the declared end of a frame of which `length` octets were ahead. -/
def untilEnd {α : Type} (total length : Nat) (item : PacketReader α) : PacketReader (List α) :=
  untilLeft item (total - length)

def readSubscribe (length : Nat) : PacketReader Subscribe := fun bs => (do
  let id ← packetId
  let subscriptions ← untilEnd bs.length length subscription
  return ⟨id, subscriptions⟩ : PacketReader Subscribe) bs

def readUnsubscribe (length : Nat) : PacketReader Unsubscribe := fun bs => (do
  let id ← packetId
  let filters ← untilEnd bs.length length text
  return ⟨id, filters⟩ : PacketReader Unsubscribe) bs

/-- A granted service level, or the code for a subscription that failed. -/
def grant : PacketReader Unit := do
  let code ← octet
  if code = 0x80 then return () else discard (qos code)

def checkSuback (length : Nat) : PacketReader Unit := fun bs => (do
  discard packetId
  discard (untilEnd bs.length length grant) : PacketReader Unit) bs

def checkConnack : PacketReader Unit := do
  discard octet
  let code ← octet
  if code ≤ 5 then return () else refuse (.returnCode code)

/-- The flags in the lower half of the first octet that a kind of packet requires. -/
def flagsFit (kind : PacketKind) (head : UInt8) : Bool :=
  match kind with
  | .publish => true
  | .pubrel | .subscribe | .unsubscribe => head &&& 0x0F == 2
  | _ => head &&& 0x0F == 0

/-- The kind of packet that a first octet announces. -/
def kindOf (head : UInt8) : PacketReader PacketKind :=
  match PacketKind.ofCode? (head >>> 4).toNat with
  | some kind =>
    if flagsFit kind head then
      if kind = .publish ∧ (head >>> 1) &&& 3 = 3 then refuse (.qos 3) else pure kind
    else refuse .header
  | none => refuse .header

/-- Reads the packet of a given kind whose whole data is `frame`. -/
def readBody (frame : Octets) (kind : PacketKind) (head : UInt8) (length : Nat) :
    PacketReader Packet :=
  match kind with
  | .connect => .connect <$> readConnect
  | .publish => .publish <$> readPublish head length
  | .subscribe => .subscribe <$> readSubscribe length
  | .unsubscribe => .unsubscribe <$> readUnsubscribe length
  | .pingreq => pure .pingReq
  | .pingresp => pure .pingResp
  | .disconnect => pure .disconnect
  | .connack => do checkConnack; return .other kind frame
  | .suback => do checkSuback length; return .other kind frame
  | .puback | .pubrec | .pubrel | .pubcomp | .unsuback => do
    discard packetId
    return .other kind frame

/-- Decodes the packet at the start of the data, which must hold the whole of its frame. -/
def decode (data : Octets) : Except Halt Packet :=
  match data, RemainingLength.extent data with
  | head :: _, .whole start length =>
    let packet := do readBody data (← kindOf head) head length
    (packet.run (data.drop start)).map (·.1)
  | _, .overlong => .error (.error (.malformed .header))
  | _, _ => .error (.error .incomplete)

end Packet
end MqttGateway
