import MqttGateway.Relay.State
/-!
# The steps of a relay

A pump takes one step at a time: it reads a frame, has it authorized, lets the interceptor see it,
writes it, and tells the hooks about it if it went to the broker. A look at the session, a call and
the storing of a session are steps of their own. The steps of the two pumps and what happens on the
connections can follow each other in any order. A pump looks whether it has been told to stop only
when it is about to read; what it holds by then is finished.
-/
namespace MqttGateway

namespace Frame

/-- The CONNECT that goes on for a session; it keeps its octets if the identity is the requested
one. -/
def withIdentity (f : Frame) (c : Connect) (requested session : Session) : Frame :=
  if session.sameIdentity requested then f else f.edit fun _ => .connect (c.withIdentity session)

def withPublication (f : Frame) (p : Publish) (content : Publication) : Frame :=
  if content = p.publication then f else f.edit fun _ => .publish (p.withPublication content)

def withFilters (f : Frame) (p : Subscribe) (filters : List String) : Frame :=
  if filters = p.filters then f else f.edit fun _ => .subscribe (p.withFilters filters)

end Frame

namespace Relay

/-- Who is asked about the packets. -/
structure Gate (σ : Type) where
  handler : Handler σ
  interceptor : Option (Interceptor σ) := none

variable {σ : Type}

def secondConnect : Refusal :=
  ["second CONNECT packet on an established session"]

def noTopics : Refusal :=
  ["no topics left to subscribe to"]

def look (s : State σ) (d : Direction) (next : Session → Phase) : State σ :=
  (s.note (.looked d s.session)).enter d (next s.session)

def authorizeConnect (g : Gate σ) (s : State σ) (seen : Session) (f : Frame) (c : Connect) :
    State σ :=
  if s.connected then s.enter .toBroker (.ended (some (.unauthorized secondConnect)))
  else
    let requested := seen.withConnect c
    s.ask .toBroker (.authorizeConnect requested) (g.handler.authorizeConnect requested)
      (.ofReply .unauthorized fun session =>
        .storing session (f.withIdentity c requested session))

def authorizePublish (g : Gate σ) (s : State σ) (seen : Session) (f : Frame) (p : Publish) :
    State σ :=
  s.ask .toBroker (.authorizePublish seen p.publication)
    (g.handler.authorizePublish seen p.publication)
    (.ofReply .unauthorized fun content => .intercepting none (f.withPublication p content))

def authorizeSubscribe (g : Gate σ) (s : State σ) (seen : Session) (f : Frame) (p : Subscribe) :
    State σ :=
  s.ask .toBroker (.authorizeSubscribe seen p.filters) (g.handler.authorizeSubscribe seen p.filters)
    (.ofReply .unauthorized fun filters =>
      if filters = [] then .ended (some (.unauthorized noTopics))
      else .intercepting none (f.withFilters p filters))

/-- A delivered topic must be one that the client could subscribe to. -/
def authorizeDelivery (g : Gate σ) (s : State σ) (seen : Session) (f : Frame) (p : Publish) :
    State σ :=
  s.ask .toClient (.authorizeSubscribe seen [p.topic]) (g.handler.authorizeSubscribe seen [p.topic])
    (.ofReply .deliveryDenied fun _ => .intercepting none f)

def authorize (g : Gate σ) (s : State σ) (d : Direction) (seen : Session) (f : Frame) : State σ :=
  match d, f.packet with
  | .toBroker, .connect c => authorizeConnect g s seen f c
  | .toBroker, .publish p => authorizePublish g s seen f p
  | .toBroker, .subscribe p => authorizeSubscribe g s seen f p
  | .toClient, .publish p => authorizeDelivery g s seen f p
  | d, _ => s.enter d (.intercepting none f)

/-- From now on the stored session is the one that is looked at. -/
def store (s : State σ) (d : Direction) (session : Session) (f : Frame) : State σ :=
  ((s.withSession session).note (.stored session)).enter d (.intercepting none f)

def intercept (g : Gate σ) (s : State σ) (d : Direction) (seen : Session) (f : Frame) : State σ :=
  match g.interceptor with
  | none => s.enter d (.writing f)
  | some interceptor =>
    s.ask d (.intercept seen f d) (interceptor seen f d) (.ofReply .intercepted .writing)

/-- Writes a frame as a whole or not at all. -/
def writeFrame (o : Outlet) (f : Frame) : Except CodecError (Octets × Outlet) := do
  let octets ← f.wire
  return (octets, ← o.write octets)

/-- What a pump does with a frame that it has written. -/
def Phase.afterWriting (d : Direction) (f : Frame) : Phase :=
  match d with
  | .toBroker => .notifying none f
  | .toClient => .reading

def write (s : State σ) (d : Direction) (f : Frame) : State σ :=
  let sink := s.sink d
  match writeFrame sink.outlet f with
  | .error error => s.enter d (.ended (some (.write error)))
  | .ok (octets, outlet) =>
    ((s.setSink d { sink with outlet }).note (.wrote d f octets)).enter d (.afterWriting d f)

/-- The notification that a packet gives rise to, and how it is noted. -/
def notification? (h : Handler σ) (s : Session) :
    Packet → Option ((Reply Unit → Call) × Hook σ Unit)
  | .connect _ => some (.connected s, h.connected s)
  | .publish p => some (.published s p.publication, h.published s p.publication)
  | .subscribe p => some (.subscribed s p.filters, h.subscribed s p.filters)
  | .unsubscribe p => some (.unsubscribed s p.filters, h.unsubscribed s p.filters)
  | _ => none

def notify (g : Gate σ) (s : State σ) (d : Direction) (seen : Session) (f : Frame) : State σ :=
  match notification? g.handler seen f.packet with
  | none => s.enter d .reading
  | some (call, hook) => s.ask d call hook (.ofReply .notify fun _ => .reading)

def read (s : State σ) (d : Direction) : State σ :=
  if s.stopped then s.enter d (.ended none)
  else
    let source := s.source d
    match source.inlet.take with
    | .waiting => s
    | .closed => s.enter d (.ended none)
    | .failed (.error error) _ => s.enter d (.ended (some (.codec error)))
    | .failed .overrun _ => s.enter d .crashed
    | .frame f rest =>
      ((s.setSource d { source with inlet := { source.inlet with arrived := rest } }).note
        (.took d f)).enter d (.authorizing none f)

/-- The next step of the pump of a direction; nothing changes if it waits or is over. -/
def pump (g : Gate σ) (d : Direction) (s : State σ) : State σ :=
  match s.phase d with
  | .reading => read s d
  | .authorizing none f => look s d fun seen => .authorizing (some seen) f
  | .authorizing (some seen) f => authorize g s d seen f
  | .storing session f => store s d session f
  | .intercepting none f => look s d fun seen => .intercepting (some seen) f
  | .intercepting (some seen) f => intercept g s d seen f
  | .writing f => write s d f
  | .notifying none f => look s d fun seen => .notifying (some seen) f
  | .notifying (some seen) f => notify g s d seen f
  | .ended _ => s
  | .crashed => s

/-- Tells the pumps to stop once one of them has reported or both are over. -/
def supervise (s : State σ) : State σ :=
  if s.exits = [] ∧ !s.isOver then s else { s with stopped := true }

/-! ## The end -/

def crashes (s : State σ) : List RelayFault :=
  [Direction.toBroker, Direction.toClient].filterMap fun d =>
    if s.phase d = .crashed then some (.crashed d) else none

/-- The fault of the first pump that reported one. -/
def firstFault? (s : State σ) : Option (Direction × PumpFault) :=
  s.exits.findSome? fun (d, fault) => fault.map fun fault => (d, fault)

/-- Whether the broker is to be told that the client leaves. -/
def leavesBroker (s : State σ) : Bool :=
  s.toBroker ≠ .crashed && ((firstFault? s).map fun e => e.2.isDelivery).getD false

/-- Writes the last DISCONNECT where one is due. -/
def leaveBroker (s : State σ) : State σ × List RelayFault :=
  if leavesBroker s then
    match writeFrame s.broker.outlet (Frame.ofPacket .disconnect) with
    | .ok (octets, outlet) =>
      ({ s with broker := { s.broker with outlet } }.note (.left octets), [])
    | .error error => (s, [.brokerDisconnect error])
  else (s, [])

/-- What is left to do when both pumps are over. -/
def conclude (g : Gate σ) (s : State σ) : State σ × Outcome :=
  let first := (firstFault? s).toList.map fun (d, fault) => .pump d s.session.shownId fault
  let (s, unwritten) := leaveBroker s
  let faults := first ++ crashes s ++ unwritten
  let (reply, hooks) := g.handler.disconnected s.session s.hooks
  let outcome := match reply with
    | .done _ => Outcome.ended faults
    | .refused causes => .ended (faults ++ [.disconnect causes])
    | .crashed => .crashed
  ({ s with hooks, outcome := some outcome }.note (.disconnected s.session reply), outcome)

end Relay
end MqttGateway
