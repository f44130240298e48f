import MqttGateway.Der.Basic
import MqttGateway.Text.Utf8
/-!
# Distinguished names

A name is a list of sets of attributes. Reading stops without complaint at the first set that is
not well formed. The text of a name separates the sets by commas and the attributes of a set by
plus signs.
-/
namespace MqttGateway

structure Attribute where
  type : Der.Oid
  tag : Nat
  value : Octets
  deriving DecidableEq, Repr

/-- The sets of a name and the octets they were read from. -/
structure Name where
  sets : List (List Attribute)
  raw : Octets
  deriving DecidableEq, Repr

namespace Attribute

open Der

def reader : Reader Attribute := Der.sequence do
  let type ← oid
  let e ← element
  return ⟨type, e.header.tag, e.content⟩

def setReader : Reader (List Attribute) := do
  let e ← tagged Tag.set
  within e.content (many1 reader)

/-- Tags of the types whose values are shown as texts. -/
def textTags : List Nat := [7, 12, 18, 19, 20, 21, 22, 25, 26, 27]

/-- Tags of the types whose values can be compared as texts. -/
def plainTags : List Nat :=
  [Tag.numericString, Tag.printableString, Tag.utf8String, Tag.ia5String]

def text? (value : Octets) : Option String :=
  match Utf8.decode value with
  | .ok s => some s
  | .error _ => none

def plainText? (a : Attribute) : Option String :=
  if plainTags.contains a.tag then text? a.value else none

/-- The characters of units of 16 bits, of which some form pairs. -/
def wideText? : Octets → Option (List Char)
  | [] => some []
  | hi :: lo :: rest => do
    let n := 256 * hi.toNat + lo.toNat
    if n < 0xD800 ∨ 0xE000 ≤ n then return Char.ofNat n :: (← wideText? rest)
    else match rest with
      | hi' :: lo' :: rest =>
        let m := 256 * hi'.toNat + lo'.toNat
        if n < 0xDC00 ∧ 0xDC00 ≤ m ∧ m < 0xE000 then
          return Char.ofNat (0x10000 + (n - 0xD800) * 0x400 + (m - 0xDC00)) :: (← wideText? rest)
        else none
      | _ => none
  | _ => none

/-- The value as it is shown: texts as they are, other values in hexadecimal digits. -/
def shown? (a : Attribute) : Option String :=
  if textTags.contains a.tag then text? a.value
  else if a.tag = Tag.bmpString then (wideText? a.value).map String.ofList
  else some (String.ofList ((Octets.hex a.value).toList.map Char.toUpper))

/-- Usual names of attribute types, the arcs of the type in front. -/
def typeNames : List (List Nat × String) := [
  ([2, 5, 4, 3], "CN"), ([2, 5, 4, 6], "C"), ([2, 5, 4, 7], "L"), ([2, 5, 4, 8], "ST"),
  ([2, 5, 4, 10], "O"), ([2, 5, 4, 11], "OU"), ([0, 9, 2342, 19200300, 100, 1, 25], "DC"),
  ([1, 2, 840, 113549, 1, 9, 1], "Email"),
  ([2, 5, 4, 0], "objectClass"), ([2, 5, 4, 1], "aliasedEntryName"),
  ([2, 5, 4, 2], "knowledgeInformation"), ([2, 5, 4, 4], "surname"),
  ([2, 5, 4, 5], "serialNumber"), ([2, 5, 4, 9], "streetAddress"), ([2, 5, 4, 12], "title"),
  ([2, 5, 4, 13], "description"), ([2, 5, 4, 14], "searchGuide"),
  ([2, 5, 4, 15], "businessCategory"), ([2, 5, 4, 16], "postalAddress"),
  ([2, 5, 4, 17], "postalCode"), ([2, 5, 4, 41], "name"), ([2, 5, 4, 42], "givenName"),
  ([2, 5, 4, 43], "initials"), ([2, 5, 4, 44], "generationQualifier"),
  ([2, 5, 4, 45], "uniqueIdentifier"), ([2, 5, 4, 46], "dnQualifier"),
  ([0, 9, 2342, 19200300, 100, 1, 1], "uid"),
  ([1, 2, 840, 113549, 1, 9, 2], "unstructuredName"),
  ([1, 2, 840, 113549, 1, 9, 3], "contentType"),
  ([1, 2, 840, 113549, 1, 9, 4], "messageDigest"),
  ([1, 2, 840, 113549, 1, 9, 5], "signingTime"),
  ([1, 2, 840, 113549, 1, 9, 7], "challengePassword"),
  ([1, 2, 840, 113549, 1, 9, 14], "extensionRequest"),
  ([1, 2, 840, 113549, 1, 9, 20], "friendlyName")]

def typeName (type : Oid) : String :=
  match typeNames.find? (Oid.ofArcs ·.1 == type) with
  | some (_, name) => name
  | none => "OID(" ++ type.text ++ ")"

def render? (a : Attribute) : Option String :=
  a.shown?.map fun value => typeName a.type ++ "=" ++ value

end Attribute

namespace Name

open Der

def reader : Reader Name := fun bs => do
  let (h, after) ← header bs
  if after.length < h.length then throw .short
  if h.tag ≠ Tag.sequence then throw .bad
  let content := after.take h.length
  let (sets, rest) := manyFrom Attribute.setReader content
  let read := bs.length - after.length + (content.length - rest.length)
  return (⟨sets, bs.take read⟩, after.drop h.length)

def attributes (n : Name) : List Attribute :=
  n.sets.flatten

/-- The first attribute of a type. -/
def find? (n : Name) (arcs : List Nat) : Option Attribute :=
  n.attributes.find? (·.type == Oid.ofArcs arcs)

def commonName? (n : Name) : Option String :=
  (n.find? [2, 5, 4, 3]).bind (·.plainText?)

/-- The serial number among the attributes, unless it is empty. -/
def serialNumber? (n : Name) : Option String :=
  ((n.find? [2, 5, 4, 5]).bind (·.plainText?)).filter (· ≠ "")

def unreadable : String := "<X509Error: Invalid X.509 name>"

def render (n : Name) : String :=
  match n.sets.mapM fun set => (set.mapM Attribute.render?).map (" + ".intercalate ·) with
  | some sets => ", ".intercalate sets
  | none => unreadable

end Name
end MqttGateway
