import MqttGateway.Signature.Modular
import MqttGateway.Der.Strict
import MqttGateway.Digest
/-!
# RSA signatures

Signatures that are the padded digest raised to the secret exponent. A key is the modulus and the
public exponent in strict encoding, the modulus within given bounds and as long as the signature.
-/
namespace MqttGateway.Rsa

structure PublicKey where
  modulus : Nat
  exponent : Nat

def octetLength (n : Nat) : Nat :=
  if n = 0 then 0 else Nat.log2 n / 8 + 1

def PublicKey.ofOctets? (leastBits : Nat) (bs : Octets) : Option PublicKey := do
  let (n, e) ← Der.Strict.pair? bs
  if 8 * octetLength n < leastBits ∨ Nat.pow 2 8192 ≤ n ∨ n % 2 = 0 then none
  else if e < 3 ∨ Nat.pow 2 33 ≤ e ∨ e % 2 = 0 then none
  else some ⟨n, e⟩

/-- The encoded algorithm identifier and digest header in front of a digest. -/
def digestHeader : DigestAlgorithm → Octets
  | .sha1 => [0x30, 0x21, 0x30, 0x09, 0x06, 0x05, 0x2B, 0x0E, 0x03, 0x02, 0x1A, 0x05, 0x00,
      0x04, 0x14]
  | .sha256 => [0x30, 0x31, 0x30, 0x0D, 0x06, 0x09, 0x60, 0x86, 0x48, 0x01, 0x65, 0x03, 0x04,
      0x02, 0x01, 0x05, 0x00, 0x04, 0x20]
  | .sha384 => [0x30, 0x41, 0x30, 0x0D, 0x06, 0x09, 0x60, 0x86, 0x48, 0x01, 0x65, 0x03, 0x04,
      0x02, 0x02, 0x05, 0x00, 0x04, 0x30]
  | .sha512 => [0x30, 0x51, 0x30, 0x0D, 0x06, 0x09, 0x60, 0x86, 0x48, 0x01, 0x65, 0x03, 0x04,
      0x02, 0x03, 0x05, 0x00, 0x04, 0x40]

/-- The block that a signature of the message must open to. -/
def block (digest : DigestAlgorithm) (width : Nat) (message : Octets) : Octets :=
  let tail := digestHeader digest ++ digest.hash message
  [0x00, 0x01] ++ List.replicate (width - 3 - tail.length) 0xFF ++ 0x00 :: tail

def verify (digest : DigestAlgorithm) (leastBits : Nat) (key signature message : Octets) : Bool :=
  match PublicKey.ofOctets? leastBits key with
  | none => false
  | some key =>
    let width := octetLength key.modulus
    let s := Octets.toNat signature
    signature.length == width && s < key.modulus &&
      Modular.pow key.modulus s key.exponent == Octets.toNat (block digest width message)

end MqttGateway.Rsa
