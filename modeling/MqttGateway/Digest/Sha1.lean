import MqttGateway.Digest.Block
/-!
# SHA-1
-/
namespace MqttGateway.Digest.Sha1

structure State where
  a : UInt32
  b : UInt32
  c : UInt32
  d : UInt32
  e : UInt32

def initial : State :=
  ⟨0x67452301, 0xEFCDAB89, 0x98BADCFE, 0x10325476, 0xC3D2E1F0⟩

def rotl (x : UInt32) (n : UInt32) : UInt32 :=
  (x <<< n) ||| (x >>> (32 - n))

def words : Octets → List UInt32
  | a :: b :: c :: d :: rest =>
    ((a.toUInt32 <<< 24) ||| (b.toUInt32 <<< 16) ||| (c.toUInt32 <<< 8) ||| d.toUInt32) ::
      words rest
  | _ => []

def schedule (block : Octets) : Array UInt32 :=
  (List.range 64).foldl (fun w i =>
    let at' (back : Nat) := w.getD (i + 16 - back) 0
    w.push (rotl (at' 3 ^^^ at' 8 ^^^ at' 14 ^^^ at' 16) 1)) (words block).toArray

def mix (i : Nat) (b c d : UInt32) : UInt32 :=
  if i < 20 then (b &&& c) ^^^ (~~~b &&& d)
  else if i < 40 then b ^^^ c ^^^ d
  else if i < 60 then (b &&& c) ^^^ (b &&& d) ^^^ (c &&& d)
  else b ^^^ c ^^^ d

def constant (i : Nat) : UInt32 :=
  if i < 20 then 0x5A827999 else if i < 40 then 0x6ED9EBA1
  else if i < 60 then 0x8F1BBCDC else 0xCA62C1D6

def compress (s : State) (block : Octets) : State :=
  let w := schedule block
  let t := (List.range 80).foldl (fun (t : State) i =>
    let next := rotl t.a 5 + mix i t.b t.c t.d + t.e + constant i + w.getD i 0
    ⟨next, t.a, rotl t.b 30, t.c, t.d⟩) s
  ⟨s.a + t.a, s.b + t.b, s.c + t.c, s.d + t.d, s.e + t.e⟩

def hash (message : Octets) : Octets :=
  let s := run 64 8 compress initial message
  [s.a, s.b, s.c, s.d, s.e].flatMap fun w => Octets.ofNat 4 w.toNat

end MqttGateway.Digest.Sha1
