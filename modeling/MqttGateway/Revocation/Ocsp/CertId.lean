import MqttGateway.Certificate.Basic
import MqttGateway.Digest
/-!
# Identifiers of certificates

A responder is asked about a certificate by its serial number and by digests of the name and of the
key of its issuer. The digest may be any of four.
-/
namespace MqttGateway.Ocsp

structure CertId where
  algorithm : Der.Oid
  nameHash : Octets
  keyHash : Octets
  serial : Octets
  deriving DecidableEq, Repr

def sha256Oid : Der.Oid :=
  .ofArcs [2, 16, 840, 1, 101, 3, 4, 2, 1]

/-- The object identifiers of digests. -/
def digestOids : List (Der.Oid × DigestAlgorithm) := [
  (.ofArcs [1, 3, 14, 3, 2, 26], .sha1),
  (sha256Oid, .sha256),
  (.ofArcs [2, 16, 840, 1, 101, 3, 4, 2, 2], .sha384),
  (.ofArcs [2, 16, 840, 1, 101, 3, 4, 2, 3], .sha512)]

def digest? (oid : Der.Oid) : Option DigestAlgorithm :=
  (digestOids.find? (·.1 == oid)).map (·.2)

namespace CertId

/-- The identifier that is sent, with digests of 32 octets. -/
def ofCertificate (c issuer : Certificate) : CertId where
  algorithm := sha256Oid
  nameHash := DigestAlgorithm.sha256.hash issuer.subject.raw
  keyHash := DigestAlgorithm.sha256.hash issuer.key.bits
  serial := c.serial

/-- Whether the digests are those of an issuer. -/
def namesIssuer (id : CertId) (digest : DigestAlgorithm) (issuer : Certificate) : Bool :=
  digest.hash issuer.subject.raw == id.nameHash && digest.hash issuer.key.bits == id.keyHash

end CertId
end MqttGateway.Ocsp
