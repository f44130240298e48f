import MqttGateway.Certificate.Signed
/-!
# Revocation lists

A list of the certificates that an issuer has revoked, with the time until which it is up to date.
A list without such a time counts as out of date.
-/
namespace MqttGateway

structure RevokedEntry where
  serial : Octets
  revokedAt : Moment
  deriving DecidableEq, Repr

structure RevocationList where
  signed : Octets
  nextUpdate : Option Moment
  revoked : List RevokedEntry
  algorithm : AlgorithmId
  signature : Octets
  deriving DecidableEq, Repr

inductive RevocationListFault
  | armour (fault : PemFault)
  | encoding (fault : Der.Fault)
  deriving DecidableEq, Repr

def RevocationListFault.message : RevocationListFault → String
  | .armour fault => "failed to parse CRL: " ++ fault.message
  | .encoding fault => "failed to parse CRL: " ++ fault.message

namespace RevocationList

open Der

/-- The version, if the list states one. -/
def versionReader : Reader (Option Nat) := fun bs =>
  match header bs with
  | .ok (h, _) => if h.tag = Tag.integer then (some <$> natural 32) bs else .ok (none, bs)
  | .error fault => .error fault

/-- A time, if the next element is one. -/
def optionalTime : Reader (Option Moment) := fun bs =>
  if bs.isEmpty then .ok (none, bs)
  else do
    let (h, _) ← header bs
    if h.tag = Tag.utcTime ∨ h.tag = Tag.generalizedTime then
      let (t, rest) ← time bs
      return (some t, rest)
    else return (none, bs)

def entryReader : Reader RevokedEntry := Der.sequence do
  let serial ← tagged Tag.integer
  return ⟨serial.content, ← time⟩

/-- The revoked certificates, if the next element is a sequence. -/
def entriesReader : Reader (List RevokedEntry) := fun bs =>
  if bs.isEmpty then .ok ([], bs)
  else do
    let (h, _) ← header bs
    if h.tag = Tag.sequence then
      (Der.sequence (all entryReader)) bs
    else return ([], bs)

def fieldsReader : Reader (Option Moment × List RevokedEntry) := do
  let _ ← versionReader
  let _ ← AlgorithmId.reader
  let _ ← Name.reader
  let _ ← time
  let nextUpdate ← optionalTime
  let revoked ← entriesReader
  let _ ← Extension.optionalReader 0
  return (nextUpdate, revoked)

def reader : Reader RevocationList := Der.sequence do
  let ((nextUpdate, revoked), signed) ← Certificate.withOctets fieldsReader
  let algorithm ← AlgorithmId.reader
  let signature ← bitString
  return { signed, nextUpdate, revoked, algorithm, signature }

def ofFile (data : Octets) : Except RevocationListFault RevocationList := do
  let der ← (Pem.content "X509 CRL" data).mapError .armour
  (Der.read reader der).mapError .encoding

/-- Whether the list is still up to date. -/
def isCurrent (l : RevocationList) (now : Moment) : Bool :=
  match l.nextUpdate with
  | some t => now ≤ t
  | none => false

def verifySignature (l : RevocationList) (issuer : Certificate) : Except SignatureFault Unit :=
  issuer.key.verify l.algorithm l.signature l.signed

/-- When the certificate with a serial number was revoked, by the first entry for it. -/
def revokedAt? (l : RevocationList) (serial : Octets) : Option Moment :=
  (l.revoked.find? fun entry => Serial.agree entry.serial serial).map (·.revokedAt)

end RevocationList
end MqttGateway
