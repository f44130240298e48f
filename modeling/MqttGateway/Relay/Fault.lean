import MqttGateway.Relay.Hooks
/-!
# How a relay fails

A pump fails for one reason. A relay can fail for several: the first pump that failed, pumps that
crashed, the last DISCONNECT that could not be written and the last hook.
-/
namespace MqttGateway

inductive PumpFault
  | codec (error : CodecError)
  | unauthorized (causes : Refusal)
  | deliveryDenied (causes : Refusal)
  | intercepted (causes : Refusal)
  | write (error : CodecError)
  | notify (causes : Refusal)
  deriving DecidableEq, Repr

def PumpFault.message : PumpFault → String
  | .codec error => error.message
  | .unauthorized causes => "unauthorized: " ++ causes.message
  | .deliveryDenied causes => "delivery to client not authorized: " ++ causes.message
  | .intercepted causes => "packet rejected by interceptor: " ++ causes.message
  | .write error => "failed to write packet: " ++ error.message
  | .notify causes => "notification hook failed: " ++ causes.message

def PumpFault.isDelivery : PumpFault → Bool
  | .deliveryDenied _ => true
  | _ => false

inductive RelayFault
  | pump (direction : Direction) (clientId : String) (fault : PumpFault)
  | crashed (direction : Direction)
  | brokerDisconnect (error : CodecError)
  | disconnect (causes : Refusal)
  deriving DecidableEq, Repr

namespace RelayFault

def message : RelayFault → String
  | .pump .toBroker clientId fault =>
    "failed to proxy from MQTT client with id " ++ clientId ++ " to MQTT broker with error: " ++
      fault.message
  | .pump .toClient clientId fault =>
    "failed to proxy from MQTT broker to client with id " ++ clientId ++ " with error: " ++
      fault.message
  | .crashed _ => "relay task failed"
  | .brokerDisconnect error => "failed to send DISCONNECT to MQTT broker: " ++ error.message
  | .disconnect causes => "disconnect hook failed: " ++ causes.message

def pumpFault? : RelayFault → Option PumpFault
  | .pump _ _ fault => some fault
  | _ => none

end RelayFault

/-- What a relay returns if anything has failed: its only fault, or several joined. -/
inductive RelayError
  | bare (fault : RelayFault)
  | joined (faults : List RelayFault)
  deriving DecidableEq, Repr

namespace RelayError

def join : List RelayFault → Option RelayError
  | [] => none
  | [fault] => some (.bare fault)
  | faults => some (.joined faults)

def message : RelayError → String
  | .bare fault => fault.message
  | .joined faults => "; ".intercalate (faults.map (·.message))

/-- The fault of a pump behind the error. -/
def pumpFault? : RelayError → Option PumpFault
  | .bare fault => fault.pumpFault?
  | .joined faults => faults.findSome? (·.pumpFault?)

end RelayError

/-- How a relay ends: with the faults that occurred, in order, or by a crash of its own. -/
inductive Outcome
  | ended (faults : List RelayFault)
  | crashed
  deriving DecidableEq, Repr

/-- What a relay returns, unless it has crashed. -/
def Outcome.result? : Outcome → Option (Except RelayError Unit)
  | .ended faults => some (match RelayError.join faults with
    | none => .ok ()
    | some error => .error error)
  | .crashed => none

end MqttGateway
