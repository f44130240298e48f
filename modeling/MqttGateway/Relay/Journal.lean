import MqttGateway.Relay.Fault
/-!
# The journal of a relay

What a relay does, in the order in which it does it: the frames its pumps take from the connections,
the sessions they look at, the calls they make with the answers they get, the session they store and
the octets they write; at the end the last DISCONNECT and the last hook.
-/
namespace MqttGateway.Relay

/-- A call to a hook or to the interceptor, with the answer. -/
inductive Call
  | authorizeConnect (session : Session) (reply : Reply Session)
  | authorizePublish (session : Session) (content : Publication) (reply : Reply Publication)
  | authorizeSubscribe (session : Session) (filters : List String) (reply : Reply (List String))
  | intercept (session : Session) (frame : Frame) (direction : Direction) (reply : Reply Frame)
  | connected (session : Session) (reply : Reply Unit)
  | published (session : Session) (content : Publication) (reply : Reply Unit)
  | subscribed (session : Session) (filters : List String) (reply : Reply Unit)
  | unsubscribed (session : Session) (filters : List String) (reply : Reply Unit)

/-- The session a call is made with. -/
def Call.session : Call → Session
  | .authorizeConnect s _ => s
  | .authorizePublish s _ _ => s
  | .authorizeSubscribe s _ _ => s
  | .intercept s _ _ _ => s
  | .connected s _ => s
  | .published s _ _ => s
  | .subscribed s _ _ => s
  | .unsubscribed s _ _ => s

inductive Entry
  | took (d : Direction) (frame : Frame)
  | looked (d : Direction) (session : Session)
  | called (d : Direction) (call : Call)
  | stored (session : Session)
  | wrote (d : Direction) (frame : Frame) (octets : Octets)
  | left (octets : Octets)
  | disconnected (session : Session) (reply : Reply Unit)

end MqttGateway.Relay
