import MqttGateway.Digest.Sha1
/-!
# SHA-256
-/
namespace MqttGateway.Digest.Sha256

structure State where
  a : UInt32
  b : UInt32
  c : UInt32
  d : UInt32
  e : UInt32
  f : UInt32
  g : UInt32
  h : UInt32

def State.ofNats : List Nat → State
  | [a, b, c, d, e, f, g, h] =>
    ⟨.ofNat a, .ofNat b, .ofNat c, .ofNat d, .ofNat e, .ofNat f, .ofNat g, .ofNat h⟩
  | _ => ⟨0, 0, 0, 0, 0, 0, 0, 0⟩

def initial : State :=
  .ofNats ((primes.take 8).map (squareRootBits 32))

def constants : Array UInt32 :=
  ((primes.take 64).map fun p => UInt32.ofNat (cubeRootBits 32 p)).toArray

def rotr (x : UInt32) (n : UInt32) : UInt32 :=
  (x >>> n) ||| (x <<< (32 - n))

def schedule (block : Octets) : Array UInt32 :=
  (List.range 48).foldl (fun w i =>
    let x := w.getD (i + 1) 0
    let y := w.getD (i + 14) 0
    let s0 := rotr x 7 ^^^ rotr x 18 ^^^ (x >>> 3)
    let s1 := rotr y 17 ^^^ rotr y 19 ^^^ (y >>> 10)
    w.push (w.getD i 0 + s0 + w.getD (i + 9) 0 + s1)) (Sha1.words block).toArray

def round (t : State) (kw : UInt32) : State :=
  let s1 := rotr t.e 6 ^^^ rotr t.e 11 ^^^ rotr t.e 25
  let choice := (t.e &&& t.f) ^^^ (~~~t.e &&& t.g)
  let t1 := t.h + s1 + choice + kw
  let s0 := rotr t.a 2 ^^^ rotr t.a 13 ^^^ rotr t.a 22
  let majority := (t.a &&& t.b) ^^^ (t.a &&& t.c) ^^^ (t.b &&& t.c)
  ⟨t1 + s0 + majority, t.a, t.b, t.c, t.d + t1, t.e, t.f, t.g⟩

def compress (s : State) (block : Octets) : State :=
  let w := schedule block
  let t := (List.range 64).foldl (fun t i => round t (constants.getD i 0 + w.getD i 0)) s
  ⟨s.a + t.a, s.b + t.b, s.c + t.c, s.d + t.d, s.e + t.e, s.f + t.f, s.g + t.g, s.h + t.h⟩

def hash (message : Octets) : Octets :=
  let s := run 64 8 compress initial message
  [s.a, s.b, s.c, s.d, s.e, s.f, s.g, s.h].flatMap fun w => Octets.ofNat 4 w.toNat

end MqttGateway.Digest.Sha256
