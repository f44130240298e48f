import MqttGateway.Revocation.Ocsp.Request
/-!
# Responses of responders

A response has a status and, if it succeeded, a typed body. A body of the basic type holds the
signed part, which says what is known of certificates, the signature, and perhaps certificates of
the signer.
-/
namespace MqttGateway.Ocsp

open Der

inductive ResponseStatus
  | successful
  | malformedRequest
  | internalError
  | tryLater
  | signatureRequired
  | unauthorized
  | unrecognized (code : UInt8)
  deriving DecidableEq, Repr

namespace ResponseStatus

def ofCode : UInt8 → ResponseStatus
  | 0 => .successful
  | 1 => .malformedRequest
  | 2 => .internalError
  | 3 => .tryLater
  | 5 => .signatureRequired
  | 6 => .unauthorized
  | code => .unrecognized code

def text : ResponseStatus → String
  | .successful => "successful"
  | .malformedRequest => "malformed request"
  | .internalError => "internal error"
  | .tryLater => "try later"
  | .signatureRequired => "signature required"
  | .unauthorized => "unauthorized"
  | .unrecognized code => "unrecognized (" ++ toString code.toNat ++ ")"

end ResponseStatus

/-- What is known of a certificate. -/
inductive CertStatus
  | good
  | revoked (time : Civil)
  | unknown
  deriving DecidableEq, Repr

structure SingleResponse where
  id : CertId
  status : CertStatus
  deriving DecidableEq, Repr

structure BasicResponse where
  /-- The signed part, with its tag and length. -/
  signed : Octets
  singles : List SingleResponse
  /-- The algorithm of the signature, not looked into. -/
  algorithm : Octets
  signature : Octets
  certificates : List Octets
  deriving DecidableEq, Repr

structure Response where
  status : ResponseStatus
  body : Option (Oid × Octets)
  deriving DecidableEq, Repr

open CertId (universal record)

/-- The next element as it is encoded. -/
def encoded : Reader Octets := fun bs => do
  let (_, rest) ← element bs
  return (bs.take (bs.length - rest.length), rest)

/-- The content of an element of the context class with a given tag number, if the next one is. -/
def optionalContext (tag : Nat) : Reader (Option Octets) := fun bs =>
  if bs.isEmpty then .ok (none, bs)
  else do
    let (e, rest) ← element bs
    if e.header.tagClass = .context ∧ e.header.tag = tag then return (some e.content, rest)
    else return (none, bs)

/-- What is in an element that may be missing. -/
def inContext {α : Type} (tag : Nat) (inner : Reader α) : Reader (Option α) := do
  match ← optionalContext tag with
  | some content => some <$> within content inner
  | none => return none

def ResponseStatus.reader : Reader ResponseStatus := do
  let code := Octets.toNat (← primitive Tag.enumerated)
  require (code < 256)
  return ofCode (UInt8.ofNat code)

namespace CertStatus

def reader : Reader CertStatus := do
  let e ← element
  require (e.header.tagClass == .context)
  match e.header.tag with
  | 0 => return .good
  | 1 => .revoked <$> within e.content generalizedTime
  | 2 => return .unknown
  | _ => refuse

end CertStatus

def SingleResponse.reader : Reader SingleResponse := record do
  return ⟨← CertId.reader, ← CertStatus.reader⟩

/-- What the signed part says of certificates. -/
def singlesReader : Reader (List SingleResponse) := record do
  let _ ← optionalContext 0
  let _ ← element
  let _ ← generalizedTime
  record (all SingleResponse.reader)

def BasicResponse.reader : Reader BasicResponse := record do
  let signed ← encoded
  let singles ← within signed singlesReader
  let algorithm ← encoded
  let signature ← bitString
  let certificates ← inContext 0 (record (all encoded))
  return { signed, singles, algorithm, signature, certificates := certificates.getD [] }

def Response.reader : Reader Response := record do
  let status ← ResponseStatus.reader
  let body ← inContext 0 (record do return (← oid, ← universal Tag.octetString))
  return ⟨status, body⟩

end MqttGateway.Ocsp
