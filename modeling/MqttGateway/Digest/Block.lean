import MqttGateway.Octets
/-!
# Hashing by blocks

What the hash functions share: the message is closed by a one bit, zeros and its length in bits so
that it fills whole blocks, and the blocks are absorbed in turn. The constants are the leading
fractional bits of roots of the first primes.
-/
namespace MqttGateway.Digest

/-- The message padded to whole blocks of `block` octets, the last `width` of them its length. -/
def pad (block width : Nat) (message : Octets) : Octets :=
  let used := (message.length + 1 + width) % block
  let zeros := if used = 0 then 0 else block - used
  message ++ 0x80 :: List.replicate zeros 0 ++ Octets.ofNat width (8 * message.length)

/-- Absorbs `count` blocks of `block` octets. -/
def absorb {S : Type} (block : Nat) (compress : S → Octets → S) : Nat → S → Octets → S
  | 0, s, _ => s
  | count + 1, s, bs => absorb block compress count (compress s (bs.take block)) (bs.drop block)

def run {S : Type} (block width : Nat) (compress : S → Octets → S) (s : S) (message : Octets) : S :=
  let padded := pad block width message
  absorb block compress (padded.length / block) s padded

def isPrime (n : Nat) : Bool :=
  2 ≤ n && (List.range n).all fun d => d < 2 || n % d ≠ 0

def primes : List Nat :=
  (List.range 410).filter isPrime

/-- The greatest number whose `k`-th power is at most `n`, below `2 ^ bits`. -/
def root (k bits n : Nat) : Nat :=
  (List.range bits).foldr
    (fun i r => if Nat.pow (r + Nat.pow 2 i) k ≤ n then r + Nat.pow 2 i else r) 0

/-- The leading `bits` fractional bits of the square root of `n`. -/
def squareRootBits (bits n : Nat) : Nat :=
  root 2 (bits + 8) (n * Nat.pow 2 (2 * bits)) % Nat.pow 2 bits

/-- The leading `bits` fractional bits of the cube root of `n`. -/
def cubeRootBits (bits n : Nat) : Nat :=
  root 3 (bits + 8) (n * Nat.pow 2 (3 * bits)) % Nat.pow 2 bits

end MqttGateway.Digest
