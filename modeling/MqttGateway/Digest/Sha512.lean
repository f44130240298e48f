import MqttGateway.Digest.Block
/-!
# SHA-512 and SHA-384

The two differ in the initial state and in how much of the final one is given out.
-/
namespace MqttGateway.Digest.Sha512

structure State where
  a : UInt64
  b : UInt64
  c : UInt64
  d : UInt64
  e : UInt64
  f : UInt64
  g : UInt64
  h : UInt64

def State.ofNats : List Nat → State
  | [a, b, c, d, e, f, g, h] =>
    ⟨.ofNat a, .ofNat b, .ofNat c, .ofNat d, .ofNat e, .ofNat f, .ofNat g, .ofNat h⟩
  | _ => ⟨0, 0, 0, 0, 0, 0, 0, 0⟩

def initial : State :=
  .ofNats ((primes.take 8).map (squareRootBits 64))

def initial384 : State :=
  .ofNats (((primes.drop 8).take 8).map (squareRootBits 64))

def constants : Array UInt64 :=
  ((primes.take 80).map fun p => UInt64.ofNat (cubeRootBits 64 p)).toArray

def rotr (x : UInt64) (n : UInt64) : UInt64 :=
  (x >>> n) ||| (x <<< (64 - n))

def words (block : Octets) : List UInt64 :=
  (List.range 16).map fun i => UInt64.ofNat (Octets.toNat ((block.drop (8 * i)).take 8))

def schedule (block : Octets) : Array UInt64 :=
  (List.range 64).foldl (fun w i =>
    let x := w.getD (i + 1) 0
    let y := w.getD (i + 14) 0
    let s0 := rotr x 1 ^^^ rotr x 8 ^^^ (x >>> 7)
    let s1 := rotr y 19 ^^^ rotr y 61 ^^^ (y >>> 6)
    w.push (w.getD i 0 + s0 + w.getD (i + 9) 0 + s1)) (words block).toArray

def round (t : State) (kw : UInt64) : State :=
  let s1 := rotr t.e 14 ^^^ rotr t.e 18 ^^^ rotr t.e 41
  let choice := (t.e &&& t.f) ^^^ (~~~t.e &&& t.g)
  let t1 := t.h + s1 + choice + kw
  let s0 := rotr t.a 28 ^^^ rotr t.a 34 ^^^ rotr t.a 39
  let majority := (t.a &&& t.b) ^^^ (t.a &&& t.c) ^^^ (t.b &&& t.c)
  ⟨t1 + s0 + majority, t.a, t.b, t.c, t.d + t1, t.e, t.f, t.g⟩

def compress (s : State) (block : Octets) : State :=
  let w := schedule block
  let t := (List.range 80).foldl (fun t i => round t (constants.getD i 0 + w.getD i 0)) s
  ⟨s.a + t.a, s.b + t.b, s.c + t.c, s.d + t.d, s.e + t.e, s.f + t.f, s.g + t.g, s.h + t.h⟩

def hashFrom (s : State) (message : Octets) : Octets :=
  let s := run 128 16 compress s message
  [s.a, s.b, s.c, s.d, s.e, s.f, s.g, s.h].flatMap fun w => Octets.ofNat 8 w.toNat

def hash (message : Octets) : Octets :=
  hashFrom initial message

def hash384 (message : Octets) : Octets :=
  (hashFrom initial384 message).take 48

end MqttGateway.Digest.Sha512
