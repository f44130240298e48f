import MqttGateway.Certificate.Name
import MqttGateway.Der.Time
import MqttGateway.Text.Utf8
/-!
# Certificates

A certificate as it was read: what its issuer signed, how it was signed, and its extensions, which
are looked into only when something is asked of them. An extension that is not well formed inside
counts as absent.
-/
namespace MqttGateway

/-- An algorithm with its parameters, if it has any. -/
structure AlgorithmId where
  oid : Der.Oid
  parameters : Option Der.Element
  deriving DecidableEq, Repr

structure PublicKey where
  algorithm : AlgorithmId
  bits : Octets
  deriving DecidableEq, Repr

structure Extension where
  id : Der.Oid
  critical : Bool
  value : Octets
  deriving DecidableEq, Repr

structure Certificate where
  der : Octets
  /-- The part that the issuer signed. -/
  signed : Octets
  version : Nat
  serial : Octets
  issuer : Name
  notBefore : Moment
  notAfter : Moment
  subject : Name
  key : PublicKey
  extensions : List Extension
  algorithm : AlgorithmId
  signature : Octets
  deriving DecidableEq, Repr

open Der

namespace AlgorithmId

/-- What follows the object identifier, if anything does. -/
def parameters? : Reader (Option Element) := do
  if ← isAtEnd then return none else some <$> element

def reader : Reader AlgorithmId := Der.sequence do
  return ⟨← Der.oid, ← parameters?⟩

end AlgorithmId

namespace PublicKey

def reader : Reader PublicKey := Der.sequence do
  return ⟨← AlgorithmId.reader, ← bitString⟩

end PublicKey

namespace Extension

/-- Whether the extension is critical; a value that is no Boolean is left to the next reader. -/
def criticalReader : Reader Bool := do
  let flag ← opt do
    let e ← element
    require (e.header.tag == Tag.boolean && e.content.length == 1)
    return e.content.any (· ≠ 0)
  return flag.getD false

def reader : Reader Extension := Der.sequence do
  return ⟨← oid, ← criticalReader, ← octetString⟩

/-- Extensions up to the end of the octets, which hold nothing else. -/
def listReader : Reader (List Extension) := do
  let e ← tagged Tag.sequence
  within e.content (all reader)

/-- The extensions after the other fields, in an element with the tag number 3. -/
def optionalReader (tag : Nat) : Reader (List Extension) := do
  if ← isAtEnd then return []
  let h ← header
  require (h.tag == tag)
  let extensions ← listReader
  require (← isAtEnd)
  return extensions

end Extension

namespace Certificate

/-- The version number, which the first version leaves out. -/
def versionReader : Reader Nat := fun bs => do
  let (h, rest) ← header bs
  if h.tag = 0 then natural 32 rest else return (0, bs)

/-- An identifier that later versions allow, as bits under the given tag number. -/
def uniqueIdReader (tag : Nat) : Reader Unit := fun bs =>
  if bs.isEmpty then .ok ((), bs)
  else do
    let (e, rest) ← element bs
    if e.header.tagClass = .context ∧ e.header.tag = tag then
      if isBits e.content then return ((), rest) else throw .bad
    else return ((), bs)

/-- Everything in the signed part but its octets. -/
structure Fields where
  version : Nat
  serial : Octets
  issuer : Name
  notBefore : Moment
  notAfter : Moment
  subject : Name
  key : PublicKey
  extensions : List Extension

def fieldsReader : Reader Fields := do
  let version ← versionReader
  let serial ← tagged Tag.integer
  let _ ← AlgorithmId.reader
  let issuer ← Name.reader
  let (notBefore, notAfter) ← Der.sequence do return (← time, ← time)
  let subject ← Name.reader
  let key ← PublicKey.reader
  uniqueIdReader 1
  uniqueIdReader 2
  let extensions ← Extension.optionalReader 3
  return ⟨version, serial.content, issuer, notBefore, notAfter, subject, key, extensions⟩

/-- A value read from a sequence together with the octets it was read from, from the start of the
sequence on. -/
def withOctets {α : Type} (inner : Reader α) : Reader (α × Octets) := fun bs => do
  let (h, after) ← header bs
  if after.length < h.length then throw .short
  if h.tag ≠ Tag.sequence then throw .bad
  let content := after.take h.length
  let (a, rest) ← inner content
  let read := bs.length - after.length + (content.length - rest.length)
  return ((a, bs.take read), after.drop h.length)

def reader (der : Octets) : Reader Certificate := Der.sequence do
  let (fields, signed) ← withOctets fieldsReader
  let algorithm ← AlgorithmId.reader
  let signature ← bitString
  let { version, serial, issuer, notBefore, notAfter, subject, key, extensions } := fields
  return { der, signed, version, serial, issuer, notBefore, notAfter, subject, key, extensions,
           algorithm, signature }

def ofDer (der : Octets) : Except Fault Certificate :=
  Der.read (reader der) der

/-! ## Extensions -/

def extensionsOf (c : Certificate) (id : List Nat) : List Extension :=
  c.extensions.filter (·.id == Oid.ofArcs id)

/-- The values of the extensions of one kind, as far as they are well formed. -/
def readAll {α : Type} (c : Certificate) (id : List Nat) (inner : Reader α) : List α :=
  (c.extensionsOf id).filterMap fun e => (Der.read inner e.value).toOption

/-- Boolean, length and both, in the forms that the basic constraints may take. -/
def basicConstraints? (items : List Element) : Option Bool :=
  let flag? (e : Element) :=
    if e.header.tag ≠ Tag.boolean ∨ e.header.constructed then none
    else match e.content with
      | [b] => some (b != 0)
      | _ => none
  let isLength (e : Element) :=
    e.header.tag == Tag.integer && !e.header.constructed && (natural? 32 e.content).isSome
  match items with
  | [] => some false
  | [e] => match flag? e with
    | some flag => some flag
    | none => if isLength e then some false else none
  | [e, f] => if isLength f then flag? e else none
  | _ => none

/-- Whether the single extension of basic constraints says that the certificate may issue others. -/
def isCa (c : Certificate) : Bool :=
  match c.extensionsOf [2, 5, 29, 19] with
  | [e] => match Der.read (Der.sequence (all element)) e.value with
    | .ok items => (basicConstraints? items).getD false
    | .error _ => false
  | _ => false

/-- The purposes of the last extension that names any. -/
def purposes? (c : Certificate) : Option (List Oid) :=
  (c.readAll [2, 5, 29, 37] (do
    let e ← tagged Tag.sequence
    require e.header.constructed
    within e.content (all oid))).getLast?

def isOcspSigner (c : Certificate) : Bool :=
  (c.purposes?.getD []).any (· == Oid.ofArcs [1, 3, 6, 1, 5, 5, 7, 3, 9])

def keyIdReader : Reader (Option Octets) := Der.sequence do
  attempt do
    let e ← element
    require (e.header.tagClass == .context && e.header.tag == 0)
    return e.content

def authorityKeyId? (c : Certificate) : Option Octets :=
  (c.readAll [2, 5, 29, 35] keyIdReader).getLast?.join

def subjectKeyId? (c : Certificate) : Option Octets :=
  (c.readAll [2, 5, 29, 14] octetString).getLast?

/-! ## Places on the network -/

/-- A general name, as far as it is a location. -/
inductive GeneralName
  | uri (text : String)
  | other

/-- A general name with a tag number that says of which kind it is. -/
def generalName : Reader GeneralName := do
  let e ← element
  let asText : Reader String :=
    match Utf8.decode e.content with
    | .ok s => pure s
    | .error _ => refuse
  match e.header.tag with
  | 0 =>
    discard (within e.content Der.oid)
    return .other
  | 1 | 2 =>
    discard asText
    return .other
  | 4 =>
    discard (within e.content do
      discard Name.reader
      require (← isAtEnd))
    return .other
  | 6 => return .uri (← asText)
  | 3 | 5 | 7 | 8 => return .other
  | _ => refuse

def accessDescription : Reader (Oid × GeneralName) := Der.sequence do
  return (← Der.oid, ← generalName)

def GeneralName.uri? : GeneralName → Option String
  | .uri text => some text
  | .other => none

/-- Where information of a kind can be had. -/
def accessLocations (c : Certificate) (method : List Nat) : List String :=
  let all := c.readAll [1, 3, 6, 1, 5, 5, 7, 1, 1] (do
    let e ← tagged Tag.sequence
    within e.content (all accessDescription))
  all.flatten.filterMap fun (m, name) => if m = Oid.ofArcs method then name.uri? else none

def ocspServers (c : Certificate) : List String :=
  c.accessLocations [1, 3, 6, 1, 5, 5, 7, 48, 1]

def issuerUrls (c : Certificate) : List String :=
  c.accessLocations [1, 3, 6, 1, 5, 5, 7, 48, 2]

/-- The locations in the full name of a distribution point, which end at the first name that is not
well formed. -/
def pointLocations : Reader (List String) := do
  let h ← header
  if h.tag = 0 then return (← many1 generalName).filterMap GeneralName.uri? else return []

def distributionPoint : Reader (List String) := Der.sequence do
  let name ← attempt do
    let e ← element
    require (e.header.tagClass == .context && e.header.tag == 0 && e.header.constructed)
    within e.content pointLocations
  return name.getD []

def distributionPoints (c : Certificate) : List String :=
  (c.readAll [2, 5, 29, 31] (do
    let e ← tagged Tag.sequence
    within e.content (all distributionPoint))).flatten.flatten

/-! ## Issuers -/

/-- Whether a certificate issued itself. -/
def isRootCa (c : Certificate) : Bool :=
  let sameKey := match c.authorityKeyId?, c.subjectKeyId? with
    | some a, some s => a ≠ [] && a == s
    | _, _ => false
  c.isCa && (sameKey || c.issuer.raw == c.subject.raw)

/-- Whether the subject of `issuer` is the one named as issuer. Serial numbers among the attributes
decide where both names have one. -/
def isIssuedBy (c issuer : Certificate) : Bool :=
  match c.issuer.serialNumber?, issuer.subject.serialNumber? with
  | some expected, some actual => expected == actual
  | _, _ => c.issuer.raw == issuer.subject.raw

/-- The first other certificate that issued the given one. -/
def findIssuer? (c : Certificate) (candidates : List Certificate) : Option Certificate :=
  candidates.find? fun candidate => candidate.der != c.der && c.isIssuedBy candidate

end Certificate

/-! ## Serial numbers -/

namespace Serial

def significant (serial : Octets) : Octets :=
  serial.dropWhile (· == 0)

/-- Serial numbers agree when they differ in nothing but leading zeros. -/
def agree (a b : Octets) : Bool :=
  significant a == significant b

/-- Lowercase hexadecimal digits without superfluous zeros. -/
def hex (serial : Octets) : String :=
  match (Octets.hex (significant serial)).toList.dropWhile (· == '0') with
  | [] => "0"
  | digits => String.ofList digits

end Serial
end MqttGateway
