import MqttGateway.Tls.KeyPair
import MqttGateway.Tls.Link
import MqttGateway.Der.Time
/-!
# Paths of trust

A client is trusted if a path leads from an anchor over presented certificates to the first of them.
Each certificate of the path has to be valid at the time and fit for its place, and each signature
has to hold under the key above it. The search gives up after a number of signatures.
-/
namespace MqttGateway.Tls

open Der.Strict

/-! ## Signatures of links -/

def ecdsaSchemes (arc : Nat) (digest : DigestAlgorithm) :
    List (Octets × Octets × SignatureScheme) :=
  let id := oidElement [1, 2, 840, 10045, 4, 3, arc]
  [(id, ecAlgorithm p256Arcs, .ecdsa Weierstrass.p256 digest),
    (id, ecAlgorithm p384Arcs, .ecdsa Weierstrass.p384 digest)]

def rsaSchemes (arc : Nat) (digest : DigestAlgorithm) :
    List (Octets × Octets × SignatureScheme) :=
  let id := oidElement [1, 2, 840, 113549, 1, 1, arc]
  [(id ++ Der.write 0x05 [], rsaAlgorithm, .rsa digest 2048),
    (id, rsaAlgorithm, .rsa digest 2048)]

/-- The schemes by the encodings of the algorithms of signature and key. -/
def pathSchemes : List (Octets × Octets × SignatureScheme) :=
  ecdsaSchemes 2 .sha256 ++ ecdsaSchemes 3 .sha384 ++
    [(edwardsAlgorithm, edwardsAlgorithm, .edwards)] ++
    rsaSchemes 11 .sha256 ++ rsaSchemes 12 .sha384 ++ rsaSchemes 13 .sha512

/-- Whether the signature of a link holds under a key. -/
def Link.isSignedBy (l : Link) (key : Octets) : Bool :=
  let holds? : Option Bool := do
    let (algorithm, rest) ← element? 0x30 key
    match ← bits? rest with
    | (bits, []) =>
      let (_, _, scheme) ← pathSchemes.find? fun (signature, key, _) =>
        signature == l.algorithm && key == algorithm
      return scheme.holds bits l.signature l.signed
    | _ => none
  holds?.getD false

/-! ## Fitness of links -/

/-- A time in whole seconds, not before 1970. -/
def strictTime : StrictReader Moment := fun bs => do
  let (short, rest) ← optional? 0x17 bs
  let (moment, rest) ← match short with
    | some content =>
      if content.length = 13 ∧ content.getLast? = some 0x5A then
        pure (← Der.shortTime? content, rest)
      else none
    | none => do
      let (content, rest) ← element? 0x18 rest
      if content.length = 15 then pure (← Der.longTime? content, rest) else none
  if moment < 0 then none else some (moment, rest)

def Link.isValidAt (l : Link) (now : Moment) : Bool :=
  match whole (do return (← strictTime, ← strictTime)) l.validity with
  | some (first, last) => first ≤ now && now ≤ last
  | none => false

/-- Whether a link may be an authority, and how many authorities may be between it and the leaf. -/
def constraintsReader : StrictReader (Bool × Option Nat) := do
  let flag ← optionalFlag
  if (← get).isEmpty then return (flag, none)
  let n ← (natural? : StrictReader Nat)
  if n < 256 then return (flag, some n) else failure

/-- Whether a link fits its place, as the leaf or with a number of authorities below it. -/
def Link.fitsPlace (l : Link) (below : Option Nat) : Bool :=
  let constraints := match l.extension? 19 with
    | none => some (false, none)
    | some content => whole constraintsReader content
  match constraints, below with
  | none, _ => false
  | some (authority, _), none => !authority
  | some (authority, most), some n => authority && most.all (n ≤ ·)

/-- The purpose of showing a server who its client is. -/
def clientPurpose : Der.Oid :=
  .ofArcs [1, 3, 6, 1, 5, 5, 7, 3, 2]

/-- Whether the octets list the purpose, which has to be reached without a fault. -/
def listsPurpose (bs : Octets) : Bool :=
  match element? 0x06 bs with
  | none => false
  | some (oid, rest) =>
    oid == clientPurpose || if rest.length < bs.length then listsPurpose rest else false
  termination_by bs.length

/-- A link that names no purposes serves all of them. -/
def Link.servesClients (l : Link) : Bool :=
  (l.extension? 37).all listsPurpose

def Link.isUsable (l : Link) (now : Moment) (below : Option Nat) : Bool :=
  l.isValidAt now && l.fitsPlace below && l.servesClients

/-! ## The search -/

/-- A search with a number of signatures that it may still check. -/
abbrev Search := StateT Nat Option

def checkSignature (l : Link) (key : Octets) : Search Bool := fun room =>
  match room with
  | 0 => none
  | room + 1 => some (l.isSignedBy key, room)

/-- Whether each link is signed under the key of the one before it, the first under a given key. -/
def signedFrom (key : Octets) : List Link → Search Bool
  | [] => return true
  | l :: rest => do
    if ← checkSignature l key then signedFrom l.key rest else return false

/-- Whether some element passes a test. -/
def existsIn {α : Type} (test : α → Search Bool) : List α → Search Bool
  | [] => return false
  | a :: rest => do
    if ← test a then return true else existsIn test rest

/-- Whether a path, given from its top, can be led up to an anchor over more links, as many as there
is room for. -/
def leadsUp (anchors : List Anchor) (pool : List Link) (now : Moment) :
    Nat → Link → List Link → Search Bool
  | room, top, below => do
    let place := if below.isEmpty then none else some (below.length - 1)
    if !top.isUsable now place then return false
    let anchored ← existsIn (fun (a : Anchor) =>
      if a.subject = top.issuer then signedFrom a.key (top :: below) else return false) anchors
    if anchored then return true
    match room with
    | 0 => return false
    | room + 1 =>
      existsIn (fun l =>
        if l.subject ≠ top.issuer ∨
            (top :: below).any (fun m => m.key = l.key ∧ m.subject = l.subject) then
          return false
        else leadsUp anchors pool now room l (top :: below)) pool

/-- Authorities that a path may have below its anchor. -/
def mostAuthorities : Nat := 6

def mostSignatures : Nat := 100

/-- Whether the first of the presented certificates is trusted. -/
def isTrusted (anchors : List Anchor) (now : Moment) : List Octets → Bool
  | [] => false
  | leaf :: rest =>
    match Link.ofDer? leaf with
    | none => false
    | some leaf =>
      let others := rest.filterMap Link.ofDer?
      match leadsUp anchors others now mostAuthorities leaf [] mostSignatures with
      | some (found, _) => found
      | none => false

end MqttGateway.Tls
