import MqttGateway.Revocation.Inquiry
/-!
# Looking into revocation lists

The list for a certificate comes from the first place that there is: the location that the
certificate names, the configured location, the configured file. A place that fails is not replaced
by the next.
-/
namespace MqttGateway.Crl

/-- The places that are configured, with the certificates under which their lists are signed. Lists
from a file need not be. -/
structure Places where
  point : Option (String × Certificate) := none
  file : Option (String × Option Certificate) := none
  deriving DecidableEq, Repr

/-- Where the list for a certificate comes from. -/
inductive Source
  | named (url : String)
  | point (url : String) (issuer : Certificate)
  | file (path : String) (issuer : Option Certificate)
  deriving DecidableEq, Repr

def Places.source? (places : Places) (c : Certificate) : Option Source :=
  match c.distributionPoints.head?, places.point, places.file with
  | some url, _, _ => some (.named url)
  | none, some (url, issuer), _ => some (.point url issuer)
  | none, none, some (path, issuer) => some (.file path issuer)
  | none, none, none => none

def readList (content : Octets) : Except VerifyFault RevocationList :=
  (RevocationList.ofFile content).mapError .list

def checkDate (l : RevocationList) (now : Moment) : Except VerifyFault Unit :=
  if l.isCurrent now then .ok () else .error .listExpired

def checkSignature (l : RevocationList) (issuer : Certificate) : Except VerifyFault Unit :=
  (l.verifySignature issuer).mapError .listSignature

/-- Whether a certificate is on a list. -/
def checkEntry (l : RevocationList) (c : Certificate) : Except VerifyFault Unit :=
  match l.revokedAt? c.serial with
  | some moment => .error (.revoked (Serial.hex c.serial) { moment })
  | none => .ok ()

variable {σ : Type} (env : Surroundings σ)

/-- The list in some octets, if it is up to date. -/
def current (now : Moment) (content : Octets) : Inquiry σ RevocationList :=
  MonadExcept.ofExcept do
    let l ← readList content
    checkDate l now
    return l

/-- The list from a place, after its date and its signature have been checked. -/
def fetch (source : Source) (c : Certificate) (paired : Option Certificate) :
    Inquiry σ RevocationList := do
  let now ← Inquiry.now env
  match source with
  | .named url =>
    let l ← current now (← Inquiry.get env url)
    let issuer ← Inquiry.resolveIssuer env c paired
    MonadExcept.ofExcept (checkSignature l issuer)
    return l
  | .point url issuer =>
    let l ← current now (← Inquiry.get env url)
    MonadExcept.ofExcept (checkSignature l issuer)
    return l
  | .file path issuer =>
    let l ← current now (← Inquiry.read env path)
    match issuer with
    | some issuer => MonadExcept.ofExcept (checkSignature l issuer)
    | none => pure ()
    return l

def check (places : Places) (c : Certificate) (paired : Option Certificate) : Inquiry σ Unit :=
  match places.source? c with
  | none => throw .noList
  | some source => do
    let l ← fetch env source c paired
    MonadExcept.ofExcept (checkEntry l c)

end MqttGateway.Crl
