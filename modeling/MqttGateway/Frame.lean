import MqttGateway.Packet.Decode
import MqttGateway.Packet.Encode
/-!
# Frames

A packet together with the octets it arrived in. As long as nobody has changed the packet its frame
goes out as it came in; a changed packet is encoded anew. Frames are taken one at a time from an
inlet, which holds the octets that have arrived and what is known of those to come.
-/
namespace MqttGateway

structure Frame where
  packet : Packet
  received : Option Octets
  deriving DecidableEq, Repr

namespace Frame

def ofPacket (packet : Packet) : Frame :=
  ⟨packet, none⟩

def kind (f : Frame) : PacketKind :=
  f.packet.kind

def isUntouched (f : Frame) : Bool :=
  f.received.isSome

/-- Gives up the octets the packet arrived in, whether or not the change has any effect. -/
def edit (change : Packet → Packet) (f : Frame) : Frame :=
  ⟨change f.packet, none⟩

def wire (f : Frame) : Except CodecError Octets :=
  match f.received with
  | some octets => .ok octets
  | none => f.packet.encode.mapError .unencodable

end Frame

/-- What follows the octets that have arrived: more at some time, nothing, or a failure. -/
inductive Ending
  | open
  | closed
  | failed (text : String)
  deriving DecidableEq, Repr

structure Inlet where
  arrived : Octets
  ending : Ending
  deriving DecidableEq, Repr

namespace Inlet

/-- The outcome of asking an inlet for a frame. -/
inductive Taken
  | frame (frame : Frame) (rest : Octets)
  | waiting
  | closed
  | failed (halt : Halt) (rest : Octets)

/-- What becomes of a frame that has begun but not all of which has arrived. -/
def interrupted : Ending → Taken
  | .open => .waiting
  | .closed => .failed (.error .truncated) []
  | .failed text => .failed (.error (.io text)) []

def take (inlet : Inlet) : Taken :=
  match inlet.arrived with
  | [] => match inlet.ending with
    | .open => .waiting
    | .closed => .closed
    | .failed text => .failed (.error (.io text)) []
  | head :: after =>
    match RemainingLength.read after with
    | .short => interrupted inlet.ending
    | .overlong => .failed (.error .remainingLength) (after.drop 4)
    | .done length body =>
      let content := body.take length
      if content.length < length then interrupted inlet.ending
      else
        let octets := head :: (RemainingLength.groups after ++ content)
        match Packet.decode octets with
        | .ok packet => .frame ⟨packet, some octets⟩ (body.drop length)
        | .error halt => .failed halt (body.drop length)

end Inlet
end MqttGateway
