import MqttGateway.Signature.Modular
import MqttGateway.Digest
/-!
# Signatures on the twisted Edwards curve

The curve `y² - x² = 1 + d x² y²` modulo `2 ^ 255 - 19`. A point is kept as `(x, y, z, t)` for
`(x / z, y / z)` with `t = x y / z`. Numbers are written with the least octet first.
-/
namespace MqttGateway.Edwards

def prime : Nat := Nat.pow 2 255 - 19

def order : Nat := Nat.pow 2 252 + 27742317777372353535851937790883648493

def coefficient : Nat :=
  (prime - 121665) * Modular.inverse prime 121666 % prime

structure Point where
  x : Nat
  y : Nat
  z : Nat
  t : Nat

namespace Point

def zero : Point := ⟨0, 1, 1, 0⟩

def add (k : Nat) (a b : Point) : Point :=
  let p := prime
  let s := Modular.sub p a.y a.x * Modular.sub p b.y b.x % p
  let u := (a.y + a.x) * (b.y + b.x) % p
  let v := 2 * k * (a.t * b.t % p) % p
  let w := 2 * (a.z * b.z) % p
  let e := Modular.sub p u s
  let f := Modular.sub p w v
  let g := (w + v) % p
  let h := (u + s) % p
  ⟨e * f % p, g * h % p, f * g % p, e * h % p⟩

def negate (a : Point) : Point :=
  { a with x := (prime - a.x) % prime, t := (prime - a.t) % prime }

/-- The sum of `m` times `a` and `n` times `b`. -/
def combine (k : Nat) (a b : Point) (m n : Nat) : Point :=
  let both := add k a b
  (List.range 256).foldr (fun i acc =>
    let acc := add k acc acc
    match m.testBit i, n.testBit i with
    | true, true => add k acc both
    | true, false => add k acc a
    | false, true => add k acc b
    | false, false => acc) zero

end Point

/-- The coordinate `x` with the given parity that belongs to `y`. -/
def recover? (k y : Nat) (odd : Bool) : Option Nat :=
  let p := prime
  let yy := y * y % p
  let square := Modular.sub p yy 1 * Modular.inverse p ((k * yy + 1) % p) % p
  let root := Modular.pow p square ((p + 3) / 8)
  let root :=
    if root * root % p = square then some root
    else
      let turned := root * Modular.pow p 2 ((p - 1) / 4) % p
      if turned * turned % p = square then some turned else none
  root.map fun x => if (x % 2 == 1) == odd then x else (p - x) % p

def point? (k : Nat) (bs : Octets) : Option Point :=
  if bs.length ≠ 32 then none
  else
    let n := Octets.toNat bs.reverse
    let y := n % Nat.pow 2 255 % prime
    (recover? k y (n.testBit 255)).map fun x => ⟨x, y, 1, x * y % prime⟩

def base (k : Nat) : Point :=
  let y := 4 * Modular.inverse prime 5 % prime
  let x := (recover? k y false).getD 0
  ⟨x, y, 1, x * y % prime⟩

def encode (a : Point) : Octets :=
  let z := Modular.inverse prime a.z
  let x := a.x * z % prime
  (Octets.ofNat 32 (a.y * z % prime + x % 2 * Nat.pow 2 255)).reverse

/-- The public key that belongs to a secret of 32 octets. -/
def publicKey (secret : Octets) : Octets :=
  let k := coefficient
  let n := Octets.toNat ((DigestAlgorithm.sha512.hash secret).take 32).reverse
  encode (Point.combine k (base k) (base k) (n % Nat.pow 2 254 / 8 * 8 + Nat.pow 2 254) 0)

def verify (key signature message : Octets) : Bool :=
  let k := coefficient
  match point? k key with
  | none => false
  | some a =>
    let r := signature.take 32
    let s := Octets.toNat (signature.drop 32).reverse
    let h := Octets.toNat (DigestAlgorithm.sha512.hash (r ++ key ++ message)).reverse % order
    signature.length == 64 && s < order &&
      encode (Point.combine k (base k) a.negate s h) == r

end MqttGateway.Edwards
