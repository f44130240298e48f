import MqttGateway.Octets
/-!
# Tagged elements

The encoding of certificates and of what is said about them: elements with a class, a tag number and
a length in front of their content. The length is definite; it need not be written in as few octets
as possible. A sequence is recognised by its tag number alone, and what its reader leaves of its
content is ignored.
-/
namespace MqttGateway.Der

/-- Why an element cannot be read: octets are missing, or those present are wrong. -/
inductive Fault
  | short
  | bad
  deriving DecidableEq, Repr

inductive TagClass
  | universal | application | context | privateUse
  deriving DecidableEq, Repr

structure Header where
  tagClass : TagClass
  constructed : Bool
  tag : Nat
  length : Nat
  deriving DecidableEq, Repr

structure Element where
  header : Header
  content : Octets
  deriving DecidableEq, Repr

/-- A step of reading: what was read and the octets still ahead. -/
abbrev Reader := StateT Octets (Except Fault)

namespace Tag

def boolean : Nat := 1
def integer : Nat := 2
def bitString : Nat := 3
def octetString : Nat := 4
def null : Nat := 5
def objectId : Nat := 6
def enumerated : Nat := 10
def utf8String : Nat := 12
def sequence : Nat := 16
def set : Nat := 17
def numericString : Nat := 18
def printableString : Nat := 19
def ia5String : Nat := 22
def utcTime : Nat := 23
def generalizedTime : Nat := 24
def bmpString : Nat := 30

end Tag

def refuse {α : Type} : Reader α :=
  fun _ => .error .bad

def require (condition : Bool) : Reader Unit :=
  if condition then pure () else refuse

def octet : Reader UInt8
  | [] => .error .short
  | b :: rest => .ok (b, rest)

def octets (n : Nat) : Reader Octets := fun bs =>
  if bs.length < n then .error .short else .ok (bs.take n, bs.drop n)

def isAtEnd : Reader Bool := fun bs =>
  .ok (bs.isEmpty, bs)

def classOf (b : UInt8) : TagClass :=
  match (b >>> 6).toNat with
  | 0 => .universal
  | 1 => .application
  | 2 => .context
  | _ => .privateUse

/-- A tag number in groups of seven bits, at most five of them, kept to 32 bits. -/
def longTag : Nat → Nat → Reader Nat
  | 0, _ => refuse
  | room + 1, n => fun bs =>
    match bs with
    | [] => .error .bad
    | b :: rest =>
      let n := (n * 128 + b.toNat % 128) % Nat.pow 2 32
      if b < 0x80 then .ok (n, rest) else longTag room n rest

def length : Reader Nat := do
  let b ← octet
  if b < 0x80 then return b.toNat
  else if b = 0x80 ∨ b = 0xFF then refuse
  else
    let n := Octets.toNat (← octets (b.toNat - 0x80))
    if n < Nat.pow 2 64 then return n else refuse

def header : Reader Header := do
  let b ← octet
  let low := b.toNat % 32
  let tag ← if low = 31 then longTag 5 0 else pure low
  return ⟨classOf b, b &&& 0x20 ≠ 0, tag, ← length⟩

def element : Reader Element := do
  let h ← header
  return ⟨h, ← octets h.length⟩

/-- Reads the content of an element and ignores what is left of it. -/
def within {α : Type} (content : Octets) (inner : Reader α) : Reader α := do
  match inner content with
  | .ok (a, _) => return a
  | .error fault => throw fault

def tagged (tag : Nat) : Reader Element := do
  let e ← element
  require (e.header.tag == tag)
  return e

def sequence {α : Type} (inner : Reader α) : Reader α := do
  let e ← tagged Tag.sequence
  within e.content inner

/-- The value read, or nothing where the octets ahead are wrong; missing octets stay a fault. -/
def opt {α : Type} (inner : Reader α) : Reader (Option α) := fun bs =>
  match inner bs with
  | .ok (a, rest) => .ok (some a, rest)
  | .error .bad => .ok (none, bs)
  | .error .short => .error .short

/-- The value read, or nothing where there is none. -/
def attempt {α : Type} (inner : Reader α) : Reader (Option α) := fun bs =>
  match inner bs with
  | .ok (a, rest) => .ok (some a, rest)
  | .error _ => .ok (none, bs)

/-- Reads items until one cannot be read. -/
def manyFrom {α : Type} (inner : Reader α) (bs : Octets) : List α × Octets :=
  match inner bs with
  | .error _ => ([], bs)
  | .ok (a, rest) =>
    if rest.length < bs.length then
      let (as, rest) := manyFrom inner rest
      (a :: as, rest)
    else ([], bs)
  termination_by bs.length

def many {α : Type} (inner : Reader α) : Reader (List α) := fun bs =>
  .ok (manyFrom inner bs)

def many1 {α : Type} (inner : Reader α) : Reader (List α) := do
  let as ← many inner
  if as.isEmpty then refuse else return as

/-- Reads items up to the end. -/
def all {α : Type} (inner : Reader α) : Reader (List α) := do
  let as ← many inner
  require (← isAtEnd)
  return as

/-- Octets that form a constructed element of the given tag. -/
def write (tag : UInt8) (content : Octets) : Octets :=
  let n := content.length
  if n < 0x80 then tag :: UInt8.ofNat n :: content
  else
    let width := (Nat.log2 n) / 8 + 1
    tag :: UInt8.ofNat (0x80 + width) :: Octets.ofNat width n ++ content

/-! ## Values -/

/-- Object identifiers, kept as the octets that encode them. -/
abbrev Oid := Octets

/-- Groups of octets, in which all but the last have the high bit. -/
def groups : Octets → List Octets
  | [] => []
  | b :: rest =>
    if b < 0x80 then [b] :: groups rest
    else match groups rest with
      | [] => [[b]]
      | g :: gs => (b :: g) :: gs

/-- The number that the low seven bits of the octets form, kept to 64 bits. -/
def groupValue (g : Octets) : Nat :=
  g.foldl (fun n b => n * 128 + b.toNat % 128) 0 % Nat.pow 2 64

/-- A number in as few groups of seven bits as possible. -/
def groupOf (n : Nat) : Octets :=
  let last := Nat.log2 n / 7
  (List.range (last + 1)).map fun i =>
    UInt8.ofNat (n / Nat.pow 128 (last - i) % 128 + if i < last then 128 else 0)

namespace Oid

def ofArcs : List Nat → Oid
  | first :: second :: rest => UInt8.ofNat (40 * first + second) :: rest.flatMap groupOf
  | _ => []

def arcs : Oid → List Nat
  | [] => []
  | [0] => [0]
  | b :: rest => b.toNat / 40 :: b.toNat % 40 :: (groups rest).map groupValue

/-- Whether a number is written that may need more than 64 bits. -/
def isLong (oid : Oid) : Bool :=
  (groups (oid.drop 1)).any fun g => 9 < g.length && g.getLast?.any (· < 0x80)

/-- The numbers with points between them, or the octets if a number is too long. -/
def text (oid : Oid) : String :=
  if oid.isLong then " ".intercalate (List.map (fun b => Octets.hex [b]) oid)
  else ".".intercalate (oid.arcs.map toString)

end Oid

def primitive (tag : Nat) : Reader Octets := do
  let e ← tagged tag
  require (!e.header.constructed)
  return e.content

/-- The place of an object identifier makes it one, whatever its tag. -/
def oid : Reader Oid := do
  let e ← element
  require (!e.header.constructed)
  return e.content

def octetString : Reader Octets :=
  primitive Tag.octetString

/-- Whether the content is a bit string whose unused bits are zero. -/
def isBits : Octets → Bool
  | [] => false
  | [unused] => unused == 0
  | unused :: b :: rest =>
    let last := (b :: rest).getLast (by simp)
    last.toNat % Nat.pow 2 unused.toNat == 0 && unused ≤ 8

def bitString : Reader Octets := do
  let content ← primitive Tag.bitString
  require (isBits content)
  return content.drop 1

/-- The content of an integer that is not negative, below `2 ^ bits`. -/
def natural? (bits : Nat) (content : Octets) : Option Nat :=
  match content with
  | [] => none
  | b :: _ =>
    let n := Octets.toNat content
    if b < 0x80 ∧ n < Nat.pow 2 bits then some n else none

def natural (bits : Nat) : Reader Nat := do
  match natural? bits (← primitive Tag.integer) with
  | some n => return n
  | none => refuse

/-- Runs a reader on all of the octets, whether or not it leaves some. -/
def read {α : Type} (inner : Reader α) (bs : Octets) : Except Fault α :=
  (inner bs).map (·.1)

end MqttGateway.Der
