import MqttGateway.Revocation.Fault
/-!
# Verdicts of responders

What a response says of a certificate. A verdict is only taken from a body that was signed by the
issuer, or by a certificate that the issuer signed for this purpose and that comes first in the
response. The first entry for the certificate decides.
-/
namespace MqttGateway.Ocsp

inductive Verdict
  | good
  | revoked (time : Instant)
  | unknown
  | failed (status : ResponseStatus)
  deriving DecidableEq, Repr

/-- The type of a basic response. -/
def basicType : Der.Oid :=
  .ofArcs [1, 3, 6, 1, 5, 5, 7, 48, 1, 1]

def malformed (fault : Der.Fault) : VerifyFault :=
  .response (.malformed fault)

/-- The certificate under whose key a response has to be signed. -/
def signer (certificates : List Certificate) (issuer : Certificate) :
    Except VerifyFault Certificate :=
  match certificates with
  | [] => .ok issuer
  | first :: _ =>
    if first.der = issuer.der then .ok issuer
    else do
      (first.verifySignedBy issuer).mapError .certificate
      if first.isOcspSigner then return first
      else throw (.response (.unauthorized first.subject.render))

/-- Whether an entry is about a certificate. -/
def concerns (id : CertId) (c issuer : Certificate) : Except OcspFault Bool :=
  if Serial.agree id.serial c.serial then
    match digest? id.algorithm with
    | some digest => .ok (id.namesIssuer digest issuer)
    | none => .error (.digest id.algorithm)
  else .ok false

def CertStatus.verdict : CertStatus → Except OcspFault Verdict
  | .good => .ok .good
  | .unknown => .ok .unknown
  | .revoked time =>
    match time.instant? with
    | some time => .ok (.revoked time)
    | none => .error .date

/-- What the first entry about a certificate says. -/
def find (c issuer : Certificate) : List SingleResponse → Except OcspFault Verdict
  | [] => .error (.silent (Serial.hex c.serial))
  | single :: singles => do
    if ← concerns single.id c issuer then single.status.verdict else find c issuer singles

/-- Checks who signed a response and reads what it says of a certificate. -/
def BasicResponse.verdict (b : BasicResponse) (c issuer : Certificate) :
    Except VerifyFault Verdict := do
  let certificates ← b.certificates.mapM fun der =>
    (Certificate.ofDer der).mapError fun fault => .certificate (.encoding fault)
  let signer ← signer certificates issuer
  let algorithm ← (Der.read AlgorithmId.reader b.algorithm).mapError
    fun fault => .response (.algorithm fault)
  (signer.verifyData algorithm b.signature b.signed).mapError
    fun fault => .response (.signature fault)
  (find c issuer b.singles).mapError .response

/-- The verdict that the octets of a response give on a certificate. -/
def verdict (octets : Octets) (c issuer : Certificate) : Except VerifyFault Verdict := do
  let response ← (Der.read Response.reader octets).mapError malformed
  if response.status ≠ .successful then return .failed response.status
  match response.body with
  | none => throw (.response .empty)
  | some (type, body) =>
    if type ≠ basicType then throw (.response (.bodyType type))
    let basic ← (Der.read BasicResponse.reader body).mapError malformed
    basic.verdict c issuer

end MqttGateway.Ocsp
