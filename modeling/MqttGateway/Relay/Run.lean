import MqttGateway.Relay.Step
/-!
# Running a relay

What happens on the connections, and the run of a relay until it waits for more: each pump is run as
far as it gets, the one to the broker first, and then, if they have been told to stop, once more.
-/
namespace MqttGateway

/-- What a peer can do to its connection. -/
inductive Happening
  | arrive (octets : Octets)
  | halfClose
  | failReading (text : String)
  | failWriting (text : String)
  deriving DecidableEq, Repr

namespace Link

/-- More octets arrive, unless no more can. -/
def arrive (link : Link) (octets : Octets) : Link :=
  match link.inlet.ending with
  | .open => { link with inlet := { link.inlet with arrived := link.inlet.arrived ++ octets } }
  | _ => link

/-- No more octets will arrive. -/
def halfClose (link : Link) : Link :=
  match link.inlet.ending with
  | .open => { link with inlet := { link.inlet with ending := .closed } }
  | _ => link

def failWriting (link : Link) (text : String) : Link :=
  { link with outlet := { link.outlet with broken := link.outlet.broken.getD text } }

def failReading (link : Link) (text : String) : Link :=
  { link with inlet := { link.inlet with ending := .failed text } }

/-- The peer is gone. -/
def close (link : Link) : Link :=
  link.halfClose.failWriting "broken pipe"

def after (link : Link) : Happening → Link
  | .arrive octets => link.arrive octets
  | .halfClose => link.halfClose
  | .failReading text => link.failReading text
  | .failWriting text => link.failWriting text

end Link

namespace Relay

variable {σ : Type}

/-- What can happen next in a relay; a peer is named by the direction it sends in. -/
inductive Event
  | peer (d : Direction) (happening : Happening)
  | pump (d : Direction)
  | supervise
  | conclude
  deriving DecidableEq, Repr

/-- A relay concludes once, when it has told the pumps to stop and both are over. -/
def step (g : Gate σ) (s : State σ) : Event → State σ
  | .peer d happening => s.setSource d ((s.source d).after happening)
  | .pump d => pump g d s
  | .supervise => supervise s
  | .conclude =>
    if s.stopped && s.isOver && s.outcome.isNone then (conclude g s).1 else s

def run (g : Gate σ) (s : State σ) (events : List Event) : State σ :=
  events.foldl (step g) s

/-- Runs a pump until it waits or is over, for at most `fuel` steps. -/
def drain (g : Gate σ) (d : Direction) : Nat → State σ → State σ
  | 0, s => s
  | fuel + 1, s =>
    let waits := match s.phase d with
      | .reading => !s.stopped && match (s.source d).inlet.take with
        | .waiting => true
        | _ => false
      | phase => phase.isOver
    if waits then s else drain g d fuel (pump g d s)

/-- A frame has at least two octets and takes at most ten steps. -/
def stepsFor (s : State σ) (d : Direction) : Nat :=
  5 * (s.source d).inlet.arrived.length + 11

def drainBoth (g : Gate σ) (s : State σ) : State σ :=
  let s := drain g .toBroker (stepsFor s .toBroker) s
  drain g .toClient (stepsFor s .toClient) s

/-- Runs a relay until both pumps wait or are over. -/
def settle (g : Gate σ) (s : State σ) : State σ :=
  let s := supervise (drainBoth g s)
  if s.stopped then supervise (drainBoth g s) else s

end Relay
end MqttGateway
