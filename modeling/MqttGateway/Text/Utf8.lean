import MqttGateway.Octets
/-!
# UTF-8

Strict decoding: a sequence is refused when it is overlong, encodes a surrogate, exceeds the last
code point or is cut short. A refusal tells where the last good sequence ended and how many octets
of the bad one had been accepted, none being said for a sequence that only lacks its end.
-/
namespace MqttGateway.Utf8

structure Fault where
  validUpTo : Nat
  badLength : Option Nat
  deriving DecidableEq, Repr

def encode (s : String) : Octets :=
  s.toList.flatMap String.utf8EncodeChar

/-- One trailing octet within the given bounds, after `seen` octets of its sequence. -/
def trail (seen lo hi : Nat) : Octets → Except (Option Nat) (Nat × Octets)
  | [] => .error none
  | b :: rest =>
    if lo ≤ b.toNat ∧ b.toNat ≤ hi then .ok (b.toNat % 64, rest) else .error (some seen)

/-- The scalar value led by `b`, and the octets after it. -/
def scalar (b : UInt8) (rest : Octets) : Except (Option Nat) (Char × Octets) := do
  let n := b.toNat
  if n < 0x80 then
    return (Char.ofNat n, rest)
  else if n < 0xC2 then
    throw (some 1)
  else if n < 0xE0 then
    let (x, rest) ← trail 1 0x80 0xBF rest
    return (Char.ofNat (n % 32 * 64 + x), rest)
  else if n < 0xF0 then
    let (x, rest) ← trail 1 (if n = 0xE0 then 0xA0 else 0x80) (if n = 0xED then 0x9F else 0xBF) rest
    let (y, rest) ← trail 2 0x80 0xBF rest
    return (Char.ofNat ((n % 16 * 64 + x) * 64 + y), rest)
  else if n < 0xF5 then
    let (x, rest) ← trail 1 (if n = 0xF0 then 0x90 else 0x80) (if n = 0xF4 then 0x8F else 0xBF) rest
    let (y, rest) ← trail 2 0x80 0xBF rest
    let (z, rest) ← trail 3 0x80 0xBF rest
    return (Char.ofNat (((n % 8 * 64 + x) * 64 + y) * 64 + z), rest)
  else
    throw (some 1)

theorem trail_length {seen lo hi : Nat} {bs rest : Octets} {x : Nat}
    (h : trail seen lo hi bs = .ok (x, rest)) : rest.length < bs.length := by
  cases bs with
  | nil => simp [trail] at h
  | cons b bs =>
    simp only [trail] at h
    split at h <;> simp at h
    simp [h.2]

theorem scalar_length {b : UInt8} {bs rest : Octets} {c : Char}
    (h : scalar b bs = .ok (c, rest)) : rest.length ≤ bs.length := by
  unfold scalar at h
  simp only [bind, Except.bind, pure, Except.pure, throw, throwThe, MonadExceptOf.throw] at h
  split at h
  · simp at h; simp [h.2]
  split at h
  · simp at h
  split at h
  · split at h <;> simp at h
    rename_i p hp
    have := trail_length hp
    rw [← h.2]; omega
  split at h
  · split at h <;> try simp at h
    rename_i p hp
    split at h <;> simp at h
    rename_i q hq
    have := trail_length hp
    have := trail_length hq
    rw [← h.2]; omega
  split at h
  · split at h <;> try simp at h
    rename_i p hp
    split at h <;> try simp at h
    rename_i q hq
    split at h <;> simp at h
    rename_i r hr
    have := trail_length hp
    have := trail_length hq
    have := trail_length hr
    rw [← h.2]; omega
  · simp at h

/-- Decodes the octets that follow `pos` octets already read into `acc`, last scalar first. -/
def decodeFrom (pos : Nat) (acc : List Char) : Octets → Except Fault (List Char)
  | [] => .ok acc.reverse
  | b :: bs =>
    match h : scalar b bs with
    | .error len => .error ⟨pos, len⟩
    | .ok (c, rest) =>
      have := scalar_length h
      decodeFrom (pos + c.utf8Size) (c :: acc) rest
  termination_by bs => bs.length

def decode (bs : Octets) : Except Fault String :=
  (decodeFrom 0 [] bs).map String.ofList

end MqttGateway.Utf8
