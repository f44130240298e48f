import MqttGateway.Packet.Basic
import MqttGateway.Text.Quoted
/-!
# What can be wrong with a packet

A frame is refused for one of the reasons in `DecodeFault`, a packet has no wire form for one of
those in `EncodeFault`. Reading beyond the last octet of the data is neither: there is no answer
then, and whoever reads is stopped.
-/
namespace MqttGateway

inductive DecodeFault
  | header
  | length
  | packetId
  | qos (level : UInt8)
  | returnCode (code : UInt8)
  | protocol (name : String) (level : UInt8)
  | text (fault : Utf8.Fault)
  deriving DecidableEq, Repr

def Utf8.Fault.describe (f : Utf8.Fault) : String :=
  let length := match f.badLength with
    | some n => s!"Some({n})"
    | none => "None"
  String.join
    ["Utf8Error \x7b valid_up_to: ", toString f.validUpTo, ", error_len: ", length, " \x7d"]

def DecodeFault.message : DecodeFault → String
  | .header => "InvalidHeader"
  | .length => "InvalidLength"
  | .packetId => "InvalidPid"
  | .qos level => s!"InvalidQos({level.toNat})"
  | .returnCode code => s!"InvalidConnectReturnCode({code.toNat})"
  | .protocol name level => s!"InvalidProtocol({Quoted.encode name}, {level.toNat})"
  | .text fault => s!"InvalidString({fault.describe})"

/-- The fields that are written with a length of two octets in front. -/
inductive Field
  | clientId | username | password | willTopic | willPayload | topicName | topicFilter
  deriving DecidableEq, Repr

def Field.label : Field → String
  | .clientId => "client identifier"
  | .username => "username"
  | .password => "password"
  | .willTopic => "will topic"
  | .willPayload => "will payload"
  | .topicName => "topic name"
  | .topicFilter => "topic filter"

inductive EncodeFault
  | fieldTooLong (field : Field) (length : Nat)
  | qos (level : UInt8)
  | packetIdMissing (level : UInt8)
  | packetId (id : UInt16)
  | packetTooLong (length : Nat)
  | noRoom
  | relabeling
  deriving DecidableEq, Repr

def EncodeFault.message : EncodeFault → String
  | .fieldTooLong field length => s!"{field.label} of {length} bytes exceeds 65535 bytes"
  | .qos level => s!"invalid QoS level {level.toNat}"
  | .packetIdMissing level => s!"PUBLISH with QoS {level.toNat} requires a valid packet identifier"
  | .packetId id => s!"invalid packet identifier {id.toNat}"
  | .packetTooLong length => s!"remaining length {length} exceeds 268435455"
  | .noRoom => "WriteZero"
  | .relabeling => "unexpected CONNECT encoding"

inductive CodecError
  | truncated
  | remainingLength
  | incomplete
  | malformed (fault : DecodeFault)
  | unencodable (fault : EncodeFault)
  | io (text : String)
  deriving DecidableEq, Repr

def CodecError.message : CodecError → String
  | .truncated => "stream ended in the middle of a packet"
  | .remainingLength => "malformed remaining length"
  | .incomplete => "incomplete MQTT packet"
  | .malformed fault => s!"failed to decode MQTT packet: {fault.message}"
  | .unencodable fault => s!"failed to encode MQTT packet: {fault.message}"
  | .io text => text

/-- Why reading a packet gave none: an error to report, or an octet beyond the end was needed. -/
inductive Halt
  | error (cause : CodecError)
  | overrun
  deriving DecidableEq, Repr

end MqttGateway
