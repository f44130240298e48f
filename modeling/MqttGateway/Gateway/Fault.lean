import MqttGateway.Access.Decision
import MqttGateway.Network.Url
import MqttGateway.Revocation.Inquiry
import MqttGateway.Settings.Overlay
/-!
# Why a gateway cannot be set up

The settings of a gateway name files and locations, which are looked at before the first client
comes.
-/
namespace MqttGateway

/-- What a certificate is loaded for. -/
inductive CertificateRole
  | clientAuthority
  | pointIssuer
  | fileIssuer
  deriving DecidableEq, Repr

def CertificateRole.text : CertificateRole → String
  | .clientAuthority => "client CA certificate"
  | .pointIssuer => "CRL distribution points issuer certificate"
  | .fileIssuer => "offline CRL issuer certificate"

inductive TlsSetupFault
  | missing (path : String)
  | damagedCertificates (path : String)
  | noCertificates (path : String)
  | damagedKey (path : String)
  | noKey (path : String)
  | unfitAuthority
  | unfitKeyPair
  deriving DecidableEq, Repr

def TlsSetupFault.message : TlsSetupFault → String
  | .missing path => "open " ++ path ++ ": " ++ missingFile
  | .damagedCertificates path => "read certificates from " ++ path
  | .noCertificates path => "no certificates found in " ++ path
  | .damagedKey path => "read private key from " ++ path
  | .noKey path => "no private key found in " ++ path
  | .unfitAuthority => "add client CA"
  | .unfitKeyPair => "certificate and private key do not fit together"

inductive SetupFault
  | rule (fault : Access.RuleFault)
  | url (key : Settings.Key) (text : String) (reason : UrlFault)
  | list (path : String) (reason : VerifyFault)
  | certificate (role : CertificateRole) (reason : CertificateFault)
  | pointWithoutIssuer
  | tls (fault : TlsSetupFault)
  deriving DecidableEq, Repr

def SetupFault.message : SetupFault → String
  | .rule fault => fault.message
  | .url key text reason =>
    "invalid value " ++ Quoted.encode text ++ " for " ++ key.name ++ ": " ++ reason.message
  | .list path reason =>
    "invalid value " ++ Quoted.encode path ++ " for " ++ Settings.Key.offlineFile.name ++ ": " ++
      reason.message
  | .certificate role reason => "failed to load " ++ role.text ++ ": " ++ reason.message
  | .pointWithoutIssuer =>
    "CRL distribution points sign check requires an issuer certificate file"
  | .tls fault => "failed to configure TLS: " ++ fault.message

/-- Steps of setting up that may read files and end early at the first fault. -/
abbrev Setup (σ : Type) := ExceptT SetupFault (StateM σ)

namespace Setup

variable {σ : Type}

/-- Loads a certificate from a file. -/
def loadCertificate (env : Surroundings σ) (role : CertificateRole) (path : String) :
    Setup σ Certificate := do
  match ← env.read path with
  | none => throw (.certificate role (.unreadable path))
  | some content => MonadExcept.ofExcept ((Certificate.ofFile content).mapError (.certificate role))

/-- Loads the certificate from a file that may not be configured. -/
def loadCertificate? (env : Surroundings σ) (role : CertificateRole) (path : Option String) :
    Setup σ (Option Certificate) := do
  match path with
  | some path => some <$> loadCertificate env role path
  | none => return none

end Setup
end MqttGateway
