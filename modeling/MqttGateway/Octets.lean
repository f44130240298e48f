/-!
# Octets

Octet strings, their reading as big-endian numerals, and their hexadecimal text.
-/
namespace MqttGateway

abbrev Octets := List UInt8

namespace Octets

/-- The unsigned number whose base-256 digits are given, most significant first. -/
def toNat (bs : Octets) : Nat :=
  bs.foldl (fun n b => n * 256 + b.toNat) 0

/-- The last `width` base-256 digits of `n`, most significant first. -/
def ofNat (width n : Nat) : Octets :=
  (List.range width).map fun i => UInt8.ofNat (n / Nat.pow 256 (width - 1 - i))

def ofUInt16 (n : UInt16) : Octets :=
  [(n >>> 8).toUInt8, n.toUInt8]

def toUInt16 (hi lo : UInt8) : UInt16 :=
  (hi.toUInt16 <<< 8) ||| lo.toUInt16

def hexDigit (n : Nat) : Char :=
  if n < 10 then Char.ofNat (48 + n) else Char.ofNat (87 + n)

/-- Two lowercase hexadecimal digits for each octet. -/
def hex (bs : Octets) : String :=
  String.ofList (bs.flatMap fun b => [hexDigit (b.toNat / 16), hexDigit (b.toNat % 16)])

def hexValue? (c : Char) : Option Nat :=
  if '0' ≤ c ∧ c ≤ '9' then some (c.toNat - 48)
  else if 'a' ≤ c ∧ c ≤ 'f' then some (c.toNat - 87)
  else if 'A' ≤ c ∧ c ≤ 'F' then some (c.toNat - 55)
  else none

/-- Reads pairs of hexadecimal digits of either case. -/
def ofHex? (s : String) : Option Octets :=
  go s.toList []
where
  go : List Char → Octets → Option Octets
    | [], acc => some acc.reverse
    | [_], _ => none
    | h :: l :: rest, acc => do
      let h ← hexValue? h
      let l ← hexValue? l
      go rest (UInt8.ofNat (16 * h + l) :: acc)

end Octets
end MqttGateway
