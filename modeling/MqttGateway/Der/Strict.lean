import MqttGateway.Octets
/-!
# Elements in strict encoding

The same elements as others read leniently, in the one form that is distinguished: their first octet
is given, their length is written in as few octets as possible, and numbers have no superfluous zero
in front.
-/
namespace MqttGateway.Der.Strict

/-- A length below `2 ^ 16` and what follows it. -/
def length? : Octets → Option (Nat × Octets)
  | b :: rest =>
    if b < 0x80 then some (b.toNat, rest)
    else match b, rest with
      | 0x81, n :: rest => if 0x80 ≤ n then some (n.toNat, rest) else none
      | 0x82, hi :: lo :: rest => if hi ≠ 0 then some (Octets.toNat [hi, lo], rest) else none
      | _, _ => none
  | [] => none

/-- The content of an element with a given first octet and what follows it. -/
def element? (tag : UInt8) : Octets → Option (Octets × Octets)
  | t :: rest => do
    let (n, rest) ← length? rest
    if t = tag ∧ n ≤ rest.length then some (rest.take n, rest.drop n) else none
  | [] => none

/-- The content of an element if the next one has the given first octet. -/
def optional? (tag : UInt8) (bs : Octets) : Option (Option Octets × Octets) :=
  if bs.head? = some tag then (element? tag bs).map fun (content, rest) => (some content, rest)
  else some (none, bs)

/-- The content of an element that is all there is. -/
def only? (tag : UInt8) (bs : Octets) : Option Octets :=
  match element? tag bs with
  | some (content, []) => some content
  | _ => none

/-- A number that is not negative. -/
def natural? (bs : Octets) : Option (Nat × Octets) := do
  let (content, rest) ← element? 0x02 bs
  match content with
  | [] => none
  | [b] => if 0x80 ≤ b then none else some (b.toNat, rest)
  | b :: c :: _ =>
    if 0x80 ≤ b ∨ (b = 0 ∧ c < 0x80) then none else some (Octets.toNat content, rest)

/-- A number that is positive. -/
def positive? (bs : Octets) : Option (Nat × Octets) := do
  let (n, rest) ← natural? bs
  if n = 0 then none else some (n, rest)

/-- Bits in whole octets. -/
def bits? (bs : Octets) : Option (Octets × Octets) := do
  match ← element? 0x03 bs with
  | (0 :: content, rest) => some (content, rest)
  | _ => none

/-- Two positive numbers in a sequence that is all there is. -/
def pair? (bs : Octets) : Option (Nat × Nat) := do
  let content ← only? 0x30 bs
  let (a, rest) ← positive? content
  match ← positive? rest with
  | (b, []) => some (a, b)
  | _ => none

end MqttGateway.Der.Strict
