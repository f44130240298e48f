import MqttGateway.Certificate.Basic
import MqttGateway.Certificate.Fault
import MqttGateway.Signature.Weierstrass
import MqttGateway.Signature.Edwards
/-!
# Signed data

Which algorithms a signature may have been made with, and the check of a signature under a key. The
key says on which curve it lies, the algorithm of the signature which digest was signed.
-/
namespace MqttGateway

inductive SignatureScheme
  | rsa (digest : DigestAlgorithm) (leastBits : Nat)
  | ecdsa (curve : Weierstrass.Curve) (digest : DigestAlgorithm)
  | edwards

namespace SignatureScheme

/-- The curve whose object identifier the parameters of a key's algorithm consist of. -/
def curveOf? (key : PublicKey) : Option Weierstrass.Curve := do
  let name := (← key.algorithm.parameters).content
  if name = Der.Oid.ofArcs [1, 2, 840, 10045, 3, 1, 7] then some Weierstrass.p256
  else if name = Der.Oid.ofArcs [1, 3, 132, 0, 34] then some Weierstrass.p384
  else none

/-- The schemes by the object identifiers of their algorithms; the key may have to name a curve. -/
def known (key : PublicKey) : List (List Nat × Option SignatureScheme) := [
  ([1, 2, 840, 113549, 1, 1, 5], some (.rsa .sha1 1024)),
  ([1, 3, 14, 3, 2, 29], some (.rsa .sha1 1024)),
  ([1, 2, 840, 113549, 1, 1, 11], some (.rsa .sha256 2048)),
  ([1, 2, 840, 113549, 1, 1, 12], some (.rsa .sha384 2048)),
  ([1, 2, 840, 113549, 1, 1, 13], some (.rsa .sha512 2048)),
  ([1, 2, 840, 10045, 4, 3, 2], (curveOf? key).map (.ecdsa · .sha256)),
  ([1, 2, 840, 10045, 4, 3, 3], (curveOf? key).map (.ecdsa · .sha384)),
  ([1, 3, 101, 112], some .edwards)]

def of? (algorithm : AlgorithmId) (key : PublicKey) : Option SignatureScheme := do
  (← (known key).find? (Der.Oid.ofArcs ·.1 == algorithm.oid)).2

def holds : SignatureScheme → (key signature message : Octets) → Bool
  | .rsa digest leastBits, key, signature, message =>
    Rsa.verify digest leastBits key signature message
  | .ecdsa curve digest, key, signature, message => curve.verify digest key signature message
  | .edwards, key, signature, message => Edwards.verify key signature message

end SignatureScheme

namespace PublicKey

def verify (key : PublicKey) (algorithm : AlgorithmId) (signature message : Octets) :
    Except SignatureFault Unit :=
  match SignatureScheme.of? algorithm key with
  | none => .error .unsupported
  | some scheme =>
    if scheme.holds key.bits signature message then .ok () else .error .mismatch

end PublicKey

namespace Certificate

/-- Reads a certificate given as it is or in the first block of an armoured file. -/
def ofFile (data : Octets) : Except CertificateFault Certificate := do
  let der ← (Pem.content "CERTIFICATE" data).mapError .armour
  (ofDer der).mapError .encoding

def verifySignedBy (c issuer : Certificate) : Except CertificateFault Unit :=
  (issuer.key.verify c.algorithm c.signature c.signed).mapError
    (.signature c.subject.render issuer.subject.render)

/-- Checks a signature that the key of this certificate made over some data. -/
def verifyData (c : Certificate) (algorithm : AlgorithmId) (signature data : Octets) :
    Except CertificateFault Unit :=
  (c.key.verify algorithm signature data).mapError (.dataSignature c.subject.render)

end Certificate
end MqttGateway
