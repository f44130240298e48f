import MqttGateway.Certificate.Signed
import MqttGateway.Der.Strict
/-!
# Links of trust paths

Certificates as they are read when a path of trust is sought. Only the third version is read, in
strict encoding and without identifiers of issuer and subject. An extension that is marked as
critical has to be one of a few, none of which may come twice.
-/
namespace MqttGateway.Tls

open Der.Strict

abbrev StrictReader := StateT Octets Option

structure Link where
  issuer : Octets
  validity : Octets
  subject : Octets
  /-- The algorithm and the bits of the key. -/
  key : Octets
  extensions : List (UInt8 × Octets)
  signed : Octets
  algorithm : Octets
  signature : Octets
  deriving DecidableEq, Repr

/-- Where a path of trust may begin. -/
structure Anchor where
  subject : Octets
  key : Octets
  deriving DecidableEq, Repr

def next (tag : UInt8) : StrictReader Octets :=
  element? tag

/-- A truth value that is false where it is missing. -/
def optionalFlag : StrictReader Bool := do
  match ← (optional? 0x01 : StrictReader _) with
  | none => return false
  | some [0x00] => return false
  | some [0xFF] => return true
  | some _ => failure

/-- Reads all of the octets. -/
def whole {α : Type} (inner : StrictReader α) (bs : Octets) : Option α :=
  match inner bs with
  | some (a, []) => some a
  | _ => none

/-- Reads items up to the end of the octets. -/
def items {α : Type} (inner : StrictReader α) (bs : Octets) : Option (List α) :=
  match bs with
  | [] => some []
  | b :: tail => do
    let (a, rest) ← inner (b :: tail)
    if rest.length < tail.length + 1 then return a :: (← items inner rest) else none
  termination_by bs.length

/-! ## Extensions -/

namespace Link

/-- Last arcs of the extensions that are understood. -/
def understood : List UInt8 := [15, 17, 19, 30, 31, 37]

structure WrittenExtension where
  id : Octets
  critical : Bool
  value : Octets

def extensionReader : StrictReader WrittenExtension := do
  return ⟨← next 0x06, ← optionalFlag, ← next 0x04⟩

/-- Keeps the content of an extension that is understood. -/
def keep (found : List (UInt8 × Octets)) (e : WrittenExtension) : Option (List (UInt8 × Octets)) :=
  match e.id with
  | [0x55, 0x1D, arc] =>
    if !understood.contains arc then if e.critical then none else some found
    else if found.any (·.1 == arc) then none
    else do
      let content ← if arc = 15 then some e.value else only? 0x30 e.value
      return (arc, content) :: found
  | _ => if e.critical then none else some found

def extensions? (bs : Octets) : Option (List (UInt8 × Octets)) := do
  if bs = [] then return []
  let list ← only? 0x30 (← only? 0xA3 bs)
  let contents ← items (next 0x30) list
  (← contents.mapM (whole extensionReader)).foldlM keep []

/-- The content of the extension with a last arc. -/
def extension? (l : Link) (arc : UInt8) : Option Octets :=
  (l.extensions.find? (·.1 == arc)).map (·.2)

/-! ## Certificates -/

/-- Everything in the signed part, which repeats the algorithm of the signature. -/
def ofFields? (fields signed algorithm signature : Octets) : Option Link := do
  let (version, rest) ← element? 0xA0 fields
  if version ≠ [0x02, 0x01, 0x02] then none
  let (_, rest) ← element? 0x02 rest
  let (repeated, rest) ← element? 0x30 rest
  if repeated ≠ algorithm then none
  let (issuer, rest) ← element? 0x30 rest
  let (validity, rest) ← element? 0x30 rest
  let (subject, rest) ← element? 0x30 rest
  let (key, rest) ← element? 0x30 rest
  let extensions ← extensions? rest
  return { issuer, validity, subject, key, extensions, signed, algorithm, signature }

def ofDer? (der : Octets) : Option Link := do
  let content ← only? 0x30 der
  let (fields, rest) ← element? 0x30 content
  let signed := content.take (content.length - rest.length)
  let (algorithm, rest) ← element? 0x30 rest
  match ← bits? rest with
  | (signature, []) => ofFields? fields signed algorithm signature
  | _ => none

end Link

namespace Anchor

/-- An anchor of the first version, whose fields after the key are not looked into. -/
def ofFirstVersion? (der : Octets) : Option Anchor := do
  let content ← only? 0x30 der
  let (fields, rest) ← element? 0x30 content
  let (_, rest) ← element? 0x30 rest
  let _ ← only? 0x03 rest
  let (_, rest) ← element? 0x02 fields
  let (_, rest) ← element? 0x30 rest
  let (_, rest) ← element? 0x30 rest
  let (_, rest) ← element? 0x30 rest
  let (subject, rest) ← element? 0x30 rest
  match ← element? 0x30 rest with
  | (key, []) => some ⟨subject, key⟩
  | _ => none

def ofDer? (der : Octets) : Option Anchor :=
  ((Link.ofDer? der).map fun l => ⟨l.subject, l.key⟩).or (ofFirstVersion? der)

end Anchor
end MqttGateway.Tls
