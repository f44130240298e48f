import MqttGateway.Gateway.Fault
import MqttGateway.Revocation.Crl
import MqttGateway.Revocation.Ocsp.Check
import MqttGateway.Revocation.Verifier
/-!
# Setting up checks

The checks that the settings ask for, each method once and in their order. Locations have to be well
formed, and the list in a configured file has to be readable from the start.
-/
namespace MqttGateway

variable {σ : Type} (env : Surroundings σ)

def checkUrl (key : Settings.Key) (text : String) : Except SetupFault Unit :=
  (Url.check text).mapError (.url key text)

/-- The configured location of lists. It counts only if the certificate is configured under which
they are signed. -/
def Crl.pointOfSettings (s : Settings.Crl) : Setup σ (Option (String × Certificate)) := do
  match s.pointUrl with
  | none => return none
  | some url =>
    MonadExcept.ofExcept (checkUrl .pointUrl url)
    match ← Setup.loadCertificate? env .pointIssuer s.pointIssuerFile with
    | some issuer => return some (url, issuer)
    | none => if s.pointSignCheck then throw .pointWithoutIssuer else return none

def Crl.fileOfSettings (s : Settings.Crl) : Setup σ (Option (String × Option Certificate)) := do
  match s.offlineFile with
  | none => return none
  | some path =>
    let issuer ← Setup.loadCertificate? env .fileIssuer s.offlineIssuerFile
    match ← env.read path with
    | none => throw (.list path (.unreadableList path))
    | some content =>
      let _ ← MonadExcept.ofExcept ((Crl.readList content).mapError (.list path))
      return some (path, issuer)

def Crl.placesOfSettings (s : Settings.Crl) : Setup σ Crl.Places := do
  return { point := ← Crl.pointOfSettings env s, file := ← Crl.fileOfSettings env s }

def Check.ofMethod (s : Settings.Revocation) : ValidationMethod → Setup σ (Check σ)
  | .ocsp => do
    match s.ocsp.responderUrl with
    | some url => MonadExcept.ofExcept (checkUrl .responderUrl url)
    | none => pure ()
    return { method := .ocsp, depth := s.ocsp.depth.toNat,
             run := Ocsp.check env s.ocsp.responderUrl }
  | .crl => do
    let places ← Crl.placesOfSettings env s.crl
    return { method := .crl, depth := s.crl.depth.toNat, run := Crl.check env places }

namespace Verifier

def ofSettings (s : Settings.Revocation) : Setup σ (Verifier σ) :=
  s.methods.eraseDups.mapM (Check.ofMethod env s)

def methods (checks : Verifier σ) : List ValidationMethod :=
  checks.map (·.method)

end Verifier
end MqttGateway
