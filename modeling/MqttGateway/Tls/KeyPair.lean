import MqttGateway.Tls.Bundle
import MqttGateway.Der.Basic
import MqttGateway.Der.Strict
import MqttGateway.Signature.Weierstrass
import MqttGateway.Signature.Edwards
/-!
# Key pairs

Of a secret key only the public key that belongs to it is wanted, in the form in which a certificate
carries it: an algorithm and bits. A key whose parts do not fit together has none.
-/
namespace MqttGateway.Tls

open Der.Strict

structure KeyInfo where
  algorithm : Octets
  bits : Octets
  deriving DecidableEq, Repr

/-- The encoding that the certificate of a key has to contain. -/
def KeyInfo.encode (k : KeyInfo) : Octets :=
  Der.write 0x30 k.algorithm ++ Der.write 0x03 (0 :: k.bits)

/-! ## Algorithms of keys -/

def oidElement (arcs : List Nat) : Octets :=
  Der.write 0x06 (Der.Oid.ofArcs arcs)

def ecAlgorithm (curve : List Nat) : Octets :=
  oidElement [1, 2, 840, 10045, 2, 1] ++ oidElement curve

def p256Arcs : List Nat := [1, 2, 840, 10045, 3, 1, 7]
def p384Arcs : List Nat := [1, 3, 132, 0, 34]

def rsaAlgorithm : Octets :=
  oidElement [1, 2, 840, 113549, 1, 1, 1] ++ Der.write 0x05 []

def edwardsAlgorithm : Octets :=
  oidElement [1, 3, 101, 112]

/-! ## Forms of secret keys -/

/-- A key with its algorithm around it; the later version may state the public key too. -/
structure WrappedKey where
  algorithm : Octets
  secret : Octets
  bits : Option Octets

def WrappedKey.ofOctets? (bs : Octets) : Option WrappedKey := do
  let (version, rest) ← natural? (← only? 0x30 bs)
  let (algorithm, rest) ← element? 0x30 rest
  let (secret, rest) ← element? 0x04 rest
  let (_, rest) ← optional? 0xA0 rest
  match version, rest with
  | 0, [] => some ⟨algorithm, secret, none⟩
  | 1, rest => do
    match ← element? 0x81 rest with
    | (0 :: bits, []) => some ⟨algorithm, secret, some bits⟩
    | _ => none
  | _, _ => none

/-- The public key of a secret number on a curve, which has to be stated with it. -/
def ecKey? (arcs : List Nat) (curve : Weierstrass.Curve) (bs : Octets) : Option KeyInfo := do
  let (version, rest) ← natural? (← only? 0x30 bs)
  let (secret, rest) ← element? 0x04 rest
  let (parameters, rest) ← optional? 0xA0 rest
  let (inner, rest) ← element? 0xA1 rest
  let (bits, tail) ← bits? inner
  let n := Octets.toNat secret
  if version = 1 ∧ secret.length = curve.width ∧ 0 < n ∧ n < curve.order ∧ rest = [] ∧ tail = [] ∧
      parameters.all (· == oidElement arcs) ∧ curve.publicKey n = bits then
    some ⟨ecAlgorithm arcs, bits⟩
  else none

def ecKeyOnAnyCurve? (bs : Octets) : Option KeyInfo :=
  (ecKey? p256Arcs Weierstrass.p256 bs).or (ecKey? p384Arcs Weierstrass.p384 bs)

/-- A positive number in as few octets as possible, with room for its sign. -/
def numberElement (n : Nat) : Octets :=
  Der.write 0x02 (Octets.ofNat (Nat.log2 n / 8 + if Nat.log2 n % 8 = 7 then 2 else 1) n)

def rsaKey? (bs : Octets) : Option KeyInfo := do
  let (version, rest) ← natural? (← only? 0x30 bs)
  let (n, rest) ← positive? rest
  let (e, rest) ← positive? rest
  let (_, rest) ← positive? rest
  let (p, rest) ← positive? rest
  let (q, rest) ← positive? rest
  let (dp, rest) ← positive? rest
  let (dq, rest) ← positive? rest
  let (inverse, rest) ← positive? rest
  if version = 0 ∧ rest = [] ∧ Nat.pow 2 2047 ≤ n ∧ n < Nat.pow 2 4096 ∧
      65537 ≤ e ∧ e < Nat.pow 2 33 ∧ e % 2 = 1 ∧
      p * q = n ∧ dp < p ∧ dq < q ∧ inverse < p ∧ q * inverse % p = 1 then
    some ⟨rsaAlgorithm, Der.write 0x30 (numberElement n ++ numberElement e)⟩
  else none

def edwardsKey? (wrapped : WrappedKey) : Option KeyInfo := do
  let secret ← only? 0x04 wrapped.secret
  let bits := Edwards.publicKey secret
  if secret.length = 32 ∧ wrapped.bits.all (· == bits) then some ⟨edwardsAlgorithm, bits⟩ else none

def wrappedKey? (bs : Octets) : Option KeyInfo := do
  let wrapped ← WrappedKey.ofOctets? bs
  if wrapped.algorithm = edwardsAlgorithm then edwardsKey? wrapped
  else if wrapped.bits.isSome then none
  else if wrapped.algorithm = rsaAlgorithm then rsaKey? wrapped.secret
  else if wrapped.algorithm = ecAlgorithm p256Arcs then
    ecKey? p256Arcs Weierstrass.p256 wrapped.secret
  else if wrapped.algorithm = ecAlgorithm p384Arcs then
    ecKey? p384Arcs Weierstrass.p384 wrapped.secret
  else none

/-- The public key that belongs to the secret key in a section. -/
def publicKey? (s : ArmouredSection) : Option KeyInfo :=
  match s.kind with
  | .wrappedKey => wrappedKey? s.content
  | .rsaKey => rsaKey? s.content
  | .ecKey => ecKeyOnAnyCurve? s.content
  | _ => none

end MqttGateway.Tls
