import MqttGateway.Frame
import MqttGateway.Policy
/-!
# Hooks

Where a relay asks others. Authorizing hooks answer with what is to be forwarded; the others are
only told what has been forwarded. Hooks may keep a state of their own.
-/
namespace MqttGateway

/-- The reasons of a refusal, from the outermost to the root. -/
abbrev Refusal := List String

def Refusal.message (causes : Refusal) : String :=
  ": ".intercalate causes

inductive Reply (α : Type)
  | done (value : α)
  | refused (causes : Refusal)
  | crashed

abbrev Hook (σ α : Type) := σ → Reply α × σ

structure Handler (σ : Type) where
  authorizeConnect : Session → Hook σ Session
  authorizePublish : Session → Publication → Hook σ Publication
  authorizeSubscribe : Session → List String → Hook σ (List String)
  connected : Session → Hook σ Unit
  published : Session → Publication → Hook σ Unit
  subscribed : Session → List String → Hook σ Unit
  unsubscribed : Session → List String → Hook σ Unit
  disconnected : Session → Hook σ Unit

/-- The ways a packet can take: from the client to the broker or back. -/
inductive Direction
  | toBroker
  | toClient
  deriving DecidableEq, Repr

def Direction.name : Direction → String
  | .toBroker => "upstream"
  | .toClient => "downstream"

def Direction.opposite : Direction → Direction
  | .toBroker => .toClient
  | .toClient => .toBroker

theorem Direction.eq_or_opposite (c d : Direction) : c = d ∨ c = d.opposite := by
  cases c <;> cases d <;> first | exact .inl rfl | exact .inr rfl

theorem Direction.opposite_ne (d : Direction) : d.opposite ≠ d := by
  cases d <;> nofun

/-- May replace any packet before it is written. -/
abbrev Interceptor (σ : Type) := Session → Frame → Direction → Hook σ Frame

namespace Policy

def reply {α : Type} : Except Denial α → Reply α
  | .ok a => .done a
  | .error denial => .refused [denial.message]

/-- The hooks that apply a policy; nothing comes of the notifications. -/
def handler (p : Policy) (σ : Type) : Handler σ where
  authorizeConnect s state := (reply (p.authorizeConnect s), state)
  authorizePublish s content state := (reply (p.authorizePublish s content), state)
  authorizeSubscribe s filters state := (reply (p.authorizeSubscribe s filters), state)
  connected _ state := (.done (), state)
  published _ _ state := (.done (), state)
  subscribed _ _ state := (.done (), state)
  unsubscribed _ _ state := (.done (), state)
  disconnected _ state := (.done (), state)

end Policy
end MqttGateway
