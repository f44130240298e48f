import MqttGateway.Revocation.Ocsp.CertId
/-!
# Requests to responders

A request asks about one certificate. Its sequences are nested as the protocol wants them, with
nothing in them that may be left out but the parameters of the digest.
-/
namespace MqttGateway.Ocsp

open Der

namespace CertId

def encode (id : CertId) : Octets :=
  write 0x30 (write 0x30 (write 0x06 id.algorithm ++ write 0x05 []) ++ write 0x04 id.nameHash ++
    write 0x04 id.keyHash ++ write 0x02 id.serial)

/-- The content of the next element, which has a universal tag. -/
def universal (tag : Nat) : Reader Octets := do
  let e ← element
  require (e.header.tagClass == .universal && e.header.tag == tag)
  return e.content

/-- A sequence that is marked as holding elements. -/
def record {α : Type} (inner : Reader α) : Reader α := do
  let e ← tagged Tag.sequence
  require e.header.constructed
  within e.content inner

def reader : Reader CertId := record do
  let algorithm ← record oid
  let nameHash ← universal Tag.octetString
  let keyHash ← universal Tag.octetString
  let serial ← universal Tag.integer
  return { algorithm, nameHash, keyHash, serial }

end CertId

/-- The octets that are sent to ask about a certificate. -/
def request (id : CertId) : Octets :=
  write 0x30 (write 0x30 (write 0x30 (write 0x30 id.encode)))

end MqttGateway.Ocsp
