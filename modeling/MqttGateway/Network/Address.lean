import MqttGateway.Octets
/-!
# Network addresses

Addresses of both families, their texts, and networks. A single address has one text in decimal
numbers, without superfluous zeros; in the text of a network they are allowed, and there a double
colon may also stand for no group at all.
-/
namespace MqttGateway

inductive Address
  | v4 (value : BitVec 32)
  | v6 (value : BitVec 128)
  deriving DecidableEq, Repr

structure Network where
  base : Address
  length : Nat
  deriving DecidableEq, Repr

structure Endpoint where
  address : Address
  port : UInt16
  deriving DecidableEq, Repr

namespace Address

def digitValue? (radix : Nat) (c : Char) : Option Nat :=
  (Octets.hexValue? c).filter (· < radix)

/-- The digits at the start of a text. -/
def digits (radix : Nat) : List Char → List Nat × List Char
  | [] => ([], [])
  | c :: cs =>
    match digitValue? radix c with
    | some d => let (ds, rest) := digits radix cs; (d :: ds, rest)
    | none => ([], c :: cs)

/-- A number of one to `most` digits below `limit`. -/
def number? (radix most limit : Nat) (text : List Char) : Option (Nat × List Char) :=
  let (ds, rest) := digits radix text
  let n := ds.foldl (fun n d => n * radix + d) 0
  if ds.isEmpty ∨ most < ds.length ∨ limit ≤ n then none else some (n, rest)

/-- A decimal octet, with leading zeros only where `padded` allows them. -/
def octet? (padded : Bool) (text : List Char) : Option (Nat × List Char) := do
  let (n, rest) ← number? 10 3 256 text
  if !padded && text.head? == some '0' && 1 < text.length - rest.length then none
  else some (n, rest)

def after? (c : Char) : List Char → Option (List Char)
  | d :: rest => if c = d then some rest else none
  | [] => none

/-- Four decimal octets with points between them. -/
def quad? (padded : Bool) (text : List Char) : Option (Nat × List Char) := do
  let (a, rest) ← octet? padded text
  let (b, rest) ← octet? padded (← after? '.' rest)
  let (c, rest) ← octet? padded (← after? '.' rest)
  let (d, rest) ← octet? padded (← after? '.' rest)
  return (((a * 256 + b) * 256 + c) * 256 + d, rest)

/-- Up to `limit` groups of 16 bits with colons between them, the last two perhaps written as four
octets; tells whether they were. -/
def groups (padded first : Bool) : Nat → List Char → List Nat × Bool × List Char
  | 0, text => ([], false, text)
  | limit + 1, text =>
    match if first then some text else after? ':' text with
    | none => ([], false, text)
    | some inner =>
      match if 0 < limit then quad? padded inner else none with
      | some (n, rest) => ([n / 65536, n % 65536], true, rest)
      | none =>
        match number? 16 4 65536 inner with
        | none => ([], false, text)
        | some (g, rest) =>
          let (gs, quad, rest) := groups padded false limit rest
          (g :: gs, quad, rest)

def ofGroups (gs : List Nat) : BitVec 128 :=
  BitVec.ofNat 128 (gs.foldl (fun n g => n * 65536 + g) 0)

def sixth? (padded : Bool) (text : List Char) : Option (BitVec 128 × List Char) := do
  let (head, quad, rest) := groups padded true 8 text
  if head.length = 8 then return (ofGroups head, rest)
  if quad then none
  let rest ← after? ':' (← after? ':' rest)
  let room := 8 - head.length
  let (tail, _, rest) := groups padded true (if padded then room else room - 1) rest
  return (ofGroups (head ++ List.replicate (room - tail.length) 0 ++ tail), rest)

def whole? {α : Type} (read : List Char → Option (α × List Char)) (text : String) : Option α :=
  match read text.toList with
  | some (a, []) => some a
  | _ => none

def ofText? (text : String) : Option Address :=
  match whole? (quad? false) text with
  | some n => some (.v4 (BitVec.ofNat 32 n))
  | none => (whole? (sixth? false) text).map .v6

def segments (value : BitVec 128) : List Nat :=
  (List.range 8).map fun i => (value.toNat >>> (16 * (7 - i))) % 65536

def hexNumber (n : Nat) : String :=
  String.ofList (Nat.toDigits 16 n)

def quadText (n : Nat) : String :=
  ".".intercalate ((Octets.ofNat 4 n).map fun b => toString b.toNat)

def groupsText (gs : List Nat) : String :=
  ":".intercalate (gs.map hexNumber)

/-- The start and length of the first of the longest runs of zeros. -/
def longestRun (gs : List Nat) : Nat × Nat :=
  let runAt (i : Nat) := ((gs.drop i).takeWhile (· == 0)).length
  (List.range gs.length).foldl
    (fun best i => if best.2 < runAt i then (i, runAt i) else best) (0, 0)

def render : Address → String
  | .v4 value => quadText value.toNat
  | .v6 value =>
    let gs := segments value
    if value.toNat >>> 32 = 0xFFFF then "::ffff:" ++ quadText (value.toNat % Nat.pow 2 32)
    else
      let (start, length) := longestRun gs
      if length < 2 then groupsText gs
      else groupsText (gs.take start) ++ "::" ++ groupsText (gs.drop (start + length))

end Address

namespace Network

def ofAddress : Address → Network
  | .v4 value => ⟨.v4 value, 32⟩
  | .v6 value => ⟨.v6 value, 128⟩

/-- The length after a slash, up to the end of the text. -/
def length? (most width : Nat) (text : List Char) : Option Nat := do
  match ← Address.number? 10 most (width + 1) (← Address.after? '/' text) with
  | (n, []) => some n
  | _ => none

def slashed? (text : String) : Option Network :=
  let four := do
    let (n, rest) ← Address.quad? true text.toList
    return Network.mk (.v4 (BitVec.ofNat 32 n)) (← length? 2 32 rest)
  let six := do
    let (value, rest) ← Address.sixth? true text.toList
    return Network.mk (.v6 value) (← length? 3 128 rest)
  match four with
  | some n => some n
  | none => six

/-- Reads a network or the text of a single address. -/
def ofText? (text : String) : Option Network :=
  match slashed? text with
  | some n => some n
  | none => (Address.ofText? text).map ofAddress

/-- An address lies in a network of its family with which it shares the leading bits. -/
def contains (n : Network) (a : Address) : Bool :=
  match n.base, a with
  | .v4 base, .v4 a => base >>> (32 - n.length) == a >>> (32 - n.length)
  | .v6 base, .v6 a => base >>> (128 - n.length) == a >>> (128 - n.length)
  | _, _ => false

end Network

namespace Endpoint

def port? (text : List Char) : Option UInt16 :=
  match Address.number? 10 text.length 65536 text with
  | some (n, []) => some (UInt16.ofNat n)
  | _ => none

def ofText? (text : String) : Option Endpoint :=
  let four := do
    let (n, rest) ← Address.quad? false text.toList
    return Endpoint.mk (.v4 (BitVec.ofNat 32 n)) (← port? (← Address.after? ':' rest))
  let six := do
    let (value, rest) ← Address.sixth? false (← Address.after? '[' text.toList)
    let rest ← Address.after? ':' (← Address.after? ']' rest)
    return Endpoint.mk (.v6 value) (← port? rest)
  match four with
  | some e => some e
  | none => six

def render (e : Endpoint) : String :=
  match e.address with
  | .v4 _ => e.address.render ++ ":" ++ toString e.port.toNat
  | .v6 _ => "[" ++ e.address.render ++ "]:" ++ toString e.port.toNat

end Endpoint
end MqttGateway
