import MqttGateway.Revocation.Inquiry
import MqttGateway.Revocation.Ocsp.Verdict
import MqttGateway.Settings.Basic
import MqttGateway.Network.Url
/-!
# Asking responders

A certificate is checked with the configured responder, or else with the first that the certificate
names. Only a good status lets it pass.
-/
namespace MqttGateway.Ocsp

variable {σ : Type} (env : Surroundings σ)

/-- Where to ask about a certificate. -/
def responder? (configured : Option String) (c : Certificate) : Option String :=
  configured.or c.ocspServers.head?

/-- Asks about a certificate. -/
def status (configured : Option String) (c issuer : Certificate) : Inquiry σ Verdict :=
  match responder? configured c with
  | none => throw (.noResponder c.subject.render)
  | some url => do
    let answer ← Inquiry.post env url (request (.ofCertificate c issuer))
    MonadExcept.ofExcept (verdict answer c issuer)

/-- Takes anything but a good status as a fault. -/
def Verdict.accept (v : Verdict) (c : Certificate) : Except VerifyFault Unit :=
  match v with
  | .good => .ok ()
  | .revoked time => .error (.revoked (Serial.hex c.serial) time)
  | .unknown => .error (.unknown (Serial.hex c.serial))
  | .failed status => .error (.serverFailed status)

def check (configured : Option String) (c : Certificate) (paired : Option Certificate) :
    Inquiry σ Unit := do
  let issuer ← Inquiry.resolveIssuer env c paired
  let verdict ← status env configured c issuer
  MonadExcept.ofExcept (verdict.accept c)

end MqttGateway.Ocsp
