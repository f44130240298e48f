import MqttGateway.Gateway.Checks
import MqttGateway.Policy
import MqttGateway.Tls.Terminator
/-!
# Gateways

A gateway as its settings describe it: where it listens, where it relays to, the policy that decides
what may pass, and the terminator that decides who may connect.
-/
namespace MqttGateway

structure Gateway (σ : Type) where
  address : String
  target : String
  policy : Policy
  terminator : Option (Terminator σ)

namespace Gateway

variable {σ : Type} (env : Surroundings σ)

def ofSettings (s : Settings) : Setup σ (Gateway σ) := do
  let policy ← MonadExcept.ofExcept ((Policy.ofSettings s).mapError .rule)
  let verifier ← Verifier.ofSettings env s.revocation
  let terminator ← Terminator.ofSettings env s.tls verifier
  return { address := s.listener.address, target := s.listener.target, policy, terminator }

def security (g : Gateway σ) : Security :=
  match g.terminator with
  | some t => t.security
  | none => .unprotected

end Gateway
end MqttGateway
