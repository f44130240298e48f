import MqttGateway.Signature.Rsa
/-!
# Elliptic curve signatures

Curves `y² = x³ - 3x + b` over a prime field. A point is kept as `(x, y, z)` for `(x / z², y / z³)`;
the neutral element has `z = 0`.
-/
namespace MqttGateway.Weierstrass

structure Curve where
  width : Nat
  prime : Nat
  b : Nat
  order : Nat
  baseX : Nat
  baseY : Nat

def p256 : Curve where
  width := 32
  prime := Nat.pow 2 256 - Nat.pow 2 224 + Nat.pow 2 192 + Nat.pow 2 96 - 1
  b := 0x5ac635d8aa3a93e7b3ebbd55769886bc651d06b0cc53b0f63bce3c3e27d2604b
  order := 0xffffffff00000000ffffffffffffffffbce6faada7179e84f3b9cac2fc632551
  baseX := 0x6b17d1f2e12c4247f8bce6e563a440f277037d812deb33a0f4a13945d898c296
  baseY := 0x4fe342e2fe1a7f9b8ee7eb4a7c0f9e162bce33576b315ececbb6406837bf51f5

def p384 : Curve where
  width := 48
  prime := Nat.pow 2 384 - Nat.pow 2 128 - Nat.pow 2 96 + Nat.pow 2 32 - 1
  b := 0xb3312fa7e23ee7e4988e056be3f82d19181d9c6efe8141120314088f5013875ac656398d8a2ed19d2a85c8edd3ec2aef
  order := 0xffffffffffffffffffffffffffffffffffffffffffffffffc7634d81f4372ddf581a0db248b0a77aecec196accc52973
  baseX := 0xaa87ca22be8b05378eb1c71ef320ad746e1d3b628ba79b9859f741e082542a385502f25dbf55296c3a545e3872760ab7
  baseY := 0x3617de4a96262c6f5d9e98bf9292dc29f8f41dbd289a147ce9da3113b5f0b8c00a60b1ce1d7e819d7a431d7c90ea0e5f

structure Point where
  x : Nat
  y : Nat
  z : Nat

namespace Point

def zero : Point := ⟨1, 1, 0⟩

def double (p : Nat) (a : Point) : Point :=
  let d := a.z * a.z % p
  let g := a.y * a.y % p
  let b := a.x * g % p
  let m := 3 * (Modular.sub p a.x d * ((a.x + d) % p)) % p
  let x := Modular.sub p (m * m % p) (8 * b % p)
  let z := Modular.sub p (Modular.sub p ((a.y + a.z) * (a.y + a.z) % p) g) d
  ⟨x, Modular.sub p (m * Modular.sub p (4 * b % p) x % p) (8 * (g * g % p) % p), z⟩

def add (p : Nat) (a b : Point) : Point :=
  if a.z = 0 then b
  else if b.z = 0 then a
  else
    let za := a.z * a.z % p
    let zb := b.z * b.z % p
    let u := a.x * zb % p
    let s := a.y * (zb * b.z % p) % p
    let h := Modular.sub p (b.x * za % p) u
    let r := Modular.sub p (b.y * (za * a.z % p) % p) s
    if h = 0 then if r = 0 then double p a else zero
    else
      let hh := h * h % p
      let hhh := hh * h % p
      let v := u * hh % p
      let x := Modular.sub p (Modular.sub p (r * r % p) hhh) (2 * v % p)
      ⟨x, Modular.sub p (r * Modular.sub p v x % p) (s * hhh % p), h * (a.z * b.z % p) % p⟩

/-- The sum of `m` times `a` and `n` times `b`, from the highest of `bits` bits on. -/
def combine (p : Nat) (a b : Point) (m n bits : Nat) : Point :=
  let both := add p a b
  (List.range bits).foldr (fun i acc =>
    let acc := double p acc
    match m.testBit i, n.testBit i with
    | true, true => add p acc both
    | true, false => add p acc a
    | false, true => add p acc b
    | false, false => acc) zero

end Point

namespace Curve

def base (c : Curve) : Point :=
  ⟨c.baseX, c.baseY, 1⟩

/-- A point given by both of its coordinates after the octet 4. -/
def point? (c : Curve) : Octets → Option Point
  | 0x04 :: rest =>
    let x := Octets.toNat (rest.take c.width)
    let y := Octets.toNat (rest.drop c.width)
    let right := (x * x % c.prime * x + (c.prime - 3) * x + c.b) % c.prime
    if rest.length = 2 * c.width ∧ x < c.prime ∧ y < c.prime ∧ y * y % c.prime = right then
      some ⟨x, y, 1⟩
    else none
  | _ => none

/-- The public key that belongs to a secret number. -/
def publicKey (c : Curve) (secret : Nat) : Octets :=
  let point := Point.combine c.prime c.base c.base secret 0 (8 * c.width)
  let z := Modular.inverse c.prime point.z
  let zz := z * z % c.prime
  0x04 :: Octets.ofNat c.width (point.x * zz % c.prime) ++
    Octets.ofNat c.width (point.y * (zz * z % c.prime) % c.prime)

/-- The leading octets of a digest, as many as the order of the curve has. -/
def digestNumber (c : Curve) (digest : Octets) : Nat :=
  Octets.toNat (digest.take c.width)

def verify (c : Curve) (digest : DigestAlgorithm) (key signature message : Octets) : Bool :=
  match c.point? key, Der.Strict.pair? signature with
  | some point, some (r, s) =>
    if c.order ≤ r ∨ c.order ≤ s then false
    else
      let w := Modular.inverse c.order s
      let m := c.digestNumber (digest.hash message) * w % c.order
      let n := r * w % c.order
      let sum := Point.combine c.prime c.base point m n (8 * c.width)
      let z := Modular.inverse c.prime sum.z
      sum.z ≠ 0 && sum.x * (z * z % c.prime) % c.prime % c.order == r
  | _, _ => false

end Curve
end MqttGateway.Weierstrass
