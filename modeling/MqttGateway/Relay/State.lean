import MqttGateway.Relay.Journal
/-!
# The state of a relay

A relay has two connections and two pumps. The pump of a direction reads from one connection and
writes to the other; it has one packet in hand at most and is always in one phase of handling it.
The session is shared by both. A pump that is about to call somebody looks at the session first, and
the other pump may change it before the call is made.
-/
namespace MqttGateway

/-- What can be written to a connection: what has been written so far, and why writing fails. -/
structure Outlet where
  written : Octets := []
  broken : Option String := none
  deriving DecidableEq, Repr

def Outlet.write (o : Outlet) (octets : Octets) : Except CodecError Outlet :=
  match o.broken with
  | some text => .error (.io text)
  | none => .ok { o with written := o.written ++ octets }

structure Link where
  inlet : Inlet := ⟨[], .open⟩
  outlet : Outlet := {}
  deriving DecidableEq, Repr

namespace Relay

/-- What a pump does next. Before it calls it looks at the session, and keeps what it has seen. A
pump that has ended reports its fault, if it has one; a crashed one reports nothing. -/
inductive Phase
  | reading
  | authorizing (seen : Option Session) (frame : Frame)
  | storing (session : Session) (frame : Frame)
  | intercepting (seen : Option Session) (frame : Frame)
  | writing (frame : Frame)
  | notifying (seen : Option Session) (frame : Frame)
  | ended (fault : Option PumpFault)
  | crashed
  deriving DecidableEq, Repr

namespace Phase

def isOver : Phase → Bool
  | .ended _ => true
  | .crashed => true
  | _ => false

/-- The report of a pump that enters a phase. -/
def report? : Phase → Option (Option PumpFault)
  | .ended fault => some fault
  | _ => none

/-- The phase after a call that was answered by `reply`. -/
def ofReply {α : Type} (fault : Refusal → PumpFault) (next : α → Phase) : Reply α → Phase
  | .done a => next a
  | .refused causes => .ended (some (fault causes))
  | .crashed => .crashed

end Phase

structure State (σ : Type) where
  session : Session
  /-- Whether a CONNECT has been authorized. -/
  connected : Bool := false
  client : Link := {}
  broker : Link := {}
  toBroker : Phase := .reading
  toClient : Phase := .reading
  /-- The reports of ended pumps in the order in which they came. -/
  exits : List (Direction × Option PumpFault) := []
  /-- Whether the pumps have been told to stop. -/
  stopped : Bool := false
  /-- How the relay ended, once it has. -/
  outcome : Option Outcome := none
  journal : List Entry := []
  hooks : σ

namespace State

variable {σ : Type}

/-- Before anything has arrived. -/
def start (session : Session) (hooks : σ) : State σ :=
  { session, hooks }

def phase (s : State σ) : Direction → Phase
  | .toBroker => s.toBroker
  | .toClient => s.toClient

/-- The connection that the pump of a direction reads from. -/
def source (s : State σ) : Direction → Link
  | .toBroker => s.client
  | .toClient => s.broker

def setSource (s : State σ) (d : Direction) (link : Link) : State σ :=
  match d with
  | .toBroker => { s with client := link }
  | .toClient => { s with broker := link }

def sink (s : State σ) (d : Direction) : Link :=
  s.source d.opposite

def setSink (s : State σ) (d : Direction) (link : Link) : State σ :=
  s.setSource d.opposite link

def isOver (s : State σ) : Bool :=
  s.toBroker.isOver && s.toClient.isOver

def withHooks (s : State σ) (hooks : σ) : State σ :=
  { s with hooks }

/-- The session after a CONNECT that was authorized. -/
def withSession (s : State σ) (session : Session) : State σ :=
  { s with session, connected := true }

def note (s : State σ) (e : Entry) : State σ :=
  { s with journal := s.journal ++ [e] }

/-- Puts the pump of a direction into a phase; a pump that ends reports it. -/
def enter (s : State σ) (d : Direction) (p : Phase) : State σ :=
  let s := { s with exits := s.exits ++ p.report?.toList.map (d, ·) }
  match d with
  | .toBroker => { s with toBroker := p }
  | .toClient => { s with toClient := p }

/-- Makes a call in the name of a pump, which goes on as the answer says. -/
def ask {α : Type} (s : State σ) (d : Direction) (call : Reply α → Call) (hook : Hook σ α)
    (next : Reply α → Phase) : State σ :=
  let (reply, hooks) := hook s.hooks
  ((s.withHooks hooks).note (.called d (call reply))).enter d (next reply)

/-! ## What each change leaves alone -/

section Frames

variable (s : State σ) (d : Direction) (p : Phase) (e : Entry) (link : Link) (hooks : σ)
variable (session : Session)

@[simp] theorem withHooks_session : (s.withHooks hooks).session = s.session := rfl
@[simp] theorem withHooks_connected : (s.withHooks hooks).connected = s.connected := rfl
@[simp] theorem withHooks_source (c : Direction) : (s.withHooks hooks).source c = s.source c := by
  cases c <;> rfl
@[simp] theorem withHooks_stopped : (s.withHooks hooks).stopped = s.stopped := rfl
@[simp] theorem withHooks_outcome : (s.withHooks hooks).outcome = s.outcome := rfl
@[simp] theorem withHooks_journal : (s.withHooks hooks).journal = s.journal := rfl
@[simp] theorem withHooks_hooks : (s.withHooks hooks).hooks = hooks := rfl
@[simp] theorem withHooks_exits : (s.withHooks hooks).exits = s.exits := rfl
@[simp] theorem withHooks_phase (c : Direction) : (s.withHooks hooks).phase c = s.phase c := by
  cases c <;> rfl

@[simp] theorem withSession_session : (s.withSession session).session = session := rfl
@[simp] theorem withSession_connected : (s.withSession session).connected = true := rfl
@[simp] theorem withSession_source (c : Direction) :
    (s.withSession session).source c = s.source c := by cases c <;> rfl
@[simp] theorem withSession_stopped : (s.withSession session).stopped = s.stopped := rfl
@[simp] theorem withSession_outcome : (s.withSession session).outcome = s.outcome := rfl
@[simp] theorem withSession_journal : (s.withSession session).journal = s.journal := rfl
@[simp] theorem withSession_hooks : (s.withSession session).hooks = s.hooks := rfl
@[simp] theorem withSession_exits : (s.withSession session).exits = s.exits := rfl
@[simp] theorem withSession_phase (c : Direction) :
    (s.withSession session).phase c = s.phase c := by cases c <;> rfl

@[simp] theorem enter_session : (s.enter d p).session = s.session := by cases d <;> rfl
@[simp] theorem enter_connected : (s.enter d p).connected = s.connected := by cases d <;> rfl
@[simp] theorem enter_source (c : Direction) : (s.enter d p).source c = s.source c := by
  cases d <;> cases c <;> rfl
@[simp] theorem enter_stopped : (s.enter d p).stopped = s.stopped := by cases d <;> rfl
@[simp] theorem enter_outcome : (s.enter d p).outcome = s.outcome := by cases d <;> rfl
@[simp] theorem enter_journal : (s.enter d p).journal = s.journal := by cases d <;> rfl
@[simp] theorem enter_hooks : (s.enter d p).hooks = s.hooks := by cases d <;> rfl
@[simp] theorem enter_exits :
    (s.enter d p).exits = s.exits ++ p.report?.toList.map (d, ·) := by cases d <;> rfl
@[simp] theorem enter_phase : (s.enter d p).phase d = p := by cases d <;> rfl
theorem enter_phase_of_ne {c : Direction} (h : c ≠ d) : (s.enter d p).phase c = s.phase c := by
  cases c <;> cases d <;> first | rfl | exact absurd rfl h

@[simp] theorem note_session : (s.note e).session = s.session := rfl
@[simp] theorem note_connected : (s.note e).connected = s.connected := rfl
@[simp] theorem note_source (c : Direction) : (s.note e).source c = s.source c := by
  cases c <;> rfl
@[simp] theorem note_stopped : (s.note e).stopped = s.stopped := rfl
@[simp] theorem note_outcome : (s.note e).outcome = s.outcome := rfl
@[simp] theorem note_journal : (s.note e).journal = s.journal ++ [e] := rfl
@[simp] theorem note_hooks : (s.note e).hooks = s.hooks := rfl
@[simp] theorem note_exits : (s.note e).exits = s.exits := rfl
@[simp] theorem note_phase (c : Direction) : (s.note e).phase c = s.phase c := by cases c <;> rfl

@[simp] theorem setSource_session : (s.setSource d link).session = s.session := by cases d <;> rfl
@[simp] theorem setSource_connected : (s.setSource d link).connected = s.connected := by
  cases d <;> rfl
@[simp] theorem setSource_stopped : (s.setSource d link).stopped = s.stopped := by cases d <;> rfl
@[simp] theorem setSource_outcome : (s.setSource d link).outcome = s.outcome := by cases d <;> rfl
@[simp] theorem setSource_journal : (s.setSource d link).journal = s.journal := by cases d <;> rfl
@[simp] theorem setSource_hooks : (s.setSource d link).hooks = s.hooks := by cases d <;> rfl
@[simp] theorem setSource_exits : (s.setSource d link).exits = s.exits := by cases d <;> rfl
@[simp] theorem setSource_phase (c : Direction) : (s.setSource d link).phase c = s.phase c := by
  cases d <;> cases c <;> rfl
@[simp] theorem setSource_source : (s.setSource d link).source d = link := by cases d <;> rfl
theorem setSource_source_of_ne {c : Direction} (h : c ≠ d) :
    (s.setSource d link).source c = s.source c := by
  cases c <;> cases d <;> first | rfl | exact absurd rfl h

end Frames

end State
end Relay
end MqttGateway
