import MqttGateway.Revocation.Fault
/-!
# Inquiries

To find out whether a certificate is revoked, servers are asked and files are read. What they answer
comes from the surroundings, which have a state of their own.
-/
namespace MqttGateway

inductive Request
  | get (url : String)
  /-- A request to a responder, which is sent as the body of a post. -/
  | ocsp (url : String) (body : Octets)
  deriving DecidableEq, Repr

structure Surroundings (σ : Type) where
  /-- The body of a successful answer, or the status of one that reports an error, if any. -/
  send : Request → StateM σ (Except (Option Nat) Octets)
  /-- The content of a file, if there is one. -/
  read : String → StateM σ (Option Octets)
  now : StateM σ Moment

/-- Steps in some surroundings that end early at the first fault. -/
abbrev Inquiry (σ : Type) := ExceptT VerifyFault (StateM σ)

namespace Inquiry

variable {σ : Type} (env : Surroundings σ)

def post (url : String) (body : Octets) : Inquiry σ Octets := do
  match ← env.send (.ocsp url body) with
  | .ok answer => return answer
  | .error status => throw (.http url status)

def get (url : String) : Inquiry σ Octets := do
  match ← env.send (.get url) with
  | .ok answer => return answer
  | .error status => throw (.http url status)

def now : Inquiry σ Moment :=
  (env.now : StateM σ Moment)

def read (path : String) : Inquiry σ Octets := do
  match ← env.read path with
  | some content => return content
  | none => throw (.unreadableList path)

/-- The issuer of a certificate: itself, or the one paired with it, or the one that the certificate
names a location of. -/
def resolveIssuer (c : Certificate) (paired : Option Certificate) : Inquiry σ Certificate :=
  if c.isRootCa then return c
  else match paired with
    | some issuer => return issuer
    | none =>
      match c.issuerUrls.head? with
      | some url => do
        let body ← get env url
        MonadExcept.ofExcept ((Certificate.ofFile body).mapError .certificate)
      | none => throw (.issuerUnavailable c.subject.render)

end Inquiry
end MqttGateway
