import MqttGateway.Gateway.Fault
import MqttGateway.Revocation.Verifier
import MqttGateway.Tls.Path
/-!
# Admitting clients

Where connections are protected, a terminator decides which clients are let in. With authorities for
clients a client has to present certificates that lead to one of them, and where checks are set up
the chain from its certificate upwards has to pass them all.
-/
namespace MqttGateway

inductive Security
  | unprotected
  | serverOnly
  | mutual
  | verified
  deriving DecidableEq, Repr

namespace Security

def ofSettings (s : Settings.Tls) (hasChecks : Bool) : Security :=
  match s.certFile, s.clientCaFile with
  | none, _ => .unprotected
  | some _, none => .serverOnly
  | some _, some _ => if hasChecks then .verified else .mutual

def text : Security → String
  | .unprotected => "without TLS"
  | .serverOnly => "with TLS"
  | .mutual => "with mTLS"
  | .verified => "with mTLS and validation of client certificate revocation status"

end Security

inductive AdmissionFault
  | handshake
  | certificate (fault : CertificateFault)
  | verify (fault : VerifyFault)
  deriving DecidableEq, Repr

def AdmissionFault.message : AdmissionFault → String
  | .handshake => "TLS handshake failed"
  | .certificate fault => fault.message
  | .verify fault => "client certificate verification failed: " ++ fault.message

namespace Tls

/-- The certificate that follows one in a chain: presented certificates come before authorities. -/
def issuer? (presented authorities : List Certificate) (c : Certificate) : Option Certificate :=
  (c.findIssuer? presented).or (c.findIssuer? authorities)

/-- A chain led up from its last certificate, until that issued itself, or its issuer is missing or
is in the chain already. -/
def extend (presented authorities : List Certificate) :
    Nat → List Certificate → Certificate → List Certificate
  | 0, chain, _ => chain
  | fuel + 1, chain, last =>
    if last.isRootCa then chain
    else match issuer? presented authorities last with
      | none => chain
      | some issuer =>
        if chain.contains issuer then chain
        else extend presented authorities fuel (chain ++ [issuer]) issuer

/-- The chain from the first presented certificate upwards. -/
def chain (presented authorities : List Certificate) : List Certificate :=
  match presented with
  | [] => []
  | leaf :: _ =>
    extend presented authorities (presented.length + authorities.length) [leaf] leaf

end Tls

/-- The authorities for clients, as certificates and as anchors of paths. -/
structure Authorities where
  certificates : List Certificate := []
  anchors : List Tls.Anchor := []
  deriving DecidableEq, Repr

structure Terminator (σ : Type) where
  security : Security
  /-- No client is asked for certificates where there are none. -/
  authorities : Option Authorities
  verifier : Verifier σ

namespace Terminator

/-! ## Setting up -/

section Setup
variable {σ : Type} (env : Surroundings σ)

def refuse {α : Type} (fault : TlsSetupFault) : Setup σ α :=
  throw (.tls fault)

def readFile (path : String) : Setup σ Octets := do
  match ← env.read path with
  | some content => return content
  | none => refuse (.missing path)

def readCertificates (path : String) : Setup σ (List Octets) := do
  match Bundle.certificates? (← readFile env path) with
  | none => refuse (.damagedCertificates path)
  | some [] => refuse (.noCertificates path)
  | some ders => return ders

def readKey (path : String) : Setup σ ArmouredSection := do
  match Bundle.key? (← readFile env path) with
  | none => refuse (.damagedKey path)
  | some none => refuse (.noKey path)
  | some (some key) => return key

/-- A certificate as an authority for clients. -/
def authority (der : Octets) : Except SetupFault (Certificate × Tls.Anchor) := do
  let c ← (Certificate.ofDer der).mapError fun fault =>
    .certificate .clientAuthority (.encoding fault)
  match Tls.Anchor.ofDer? der with
  | some anchor => return (c, anchor)
  | none => throw (.tls .unfitAuthority)

def readAuthorities (path : String) : Setup σ Authorities := do
  let found ← MonadExcept.ofExcept ((← readCertificates env path).mapM authority)
  return { certificates := found.map (·.1), anchors := found.map (·.2) }

/-- Whether a secret key belongs to a certificate. -/
def isKeyOf (key : ArmouredSection) (der : Octets) : Bool :=
  match Tls.publicKey? key, Tls.Link.ofDer? der with
  | some info, some link => info.encode == link.key
  | _, _ => false

/-- Checks that the key in one file belongs to the first certificate in another. -/
def checkKeyPair (certFile keyFile : String) : Setup σ Unit := do
  let ders ← readCertificates env certFile
  let key ← readKey env keyFile
  if ders.head?.any (isKeyOf key) then return () else refuse .unfitKeyPair

/-- There is none without a certificate and a key of the gateway itself. -/
def ofSettings (s : Settings.Tls) (verifier : Verifier σ) : Setup σ (Option (Terminator σ)) := do
  match s.certFile, s.keyFile with
  | some certFile, some keyFile =>
    let authorities ← match s.clientCaFile with
      | some path => some <$> readAuthorities env path
      | none => pure none
    checkKeyPair env certFile keyFile
    return some { security := .ofSettings s (!verifier.isEmpty), authorities, verifier }
  | _, _ => return none

end Setup

/-! ## Clients -/

variable {σ : Type} (t : Terminator σ)

/-- The certificates that a client is left with after the handshake, unless that fails. -/
def handshake (now : Moment) (offered : List Octets) : Except AdmissionFault (List Octets) :=
  match t.authorities with
  | none => .ok []
  | some a => if Tls.isTrusted a.anchors now offered then .ok offered else .error .handshake

def parse (der : Octets) : Except AdmissionFault Certificate :=
  (Certificate.ofDer der).mapError fun fault => .certificate (.encoding fault)

/-- Steps of admitting a client in some surroundings. -/
abbrev Admission (σ : Type) := ExceptT AdmissionFault (StateM σ)

/-- Runs the checks on the chain of the presented certificates. -/
def gate (presented : List Octets) : Admission σ Unit := do
  let certificates ← MonadExcept.ofExcept (presented.mapM parse)
  let authorities := (t.authorities.getD {}).certificates
  let chain := Tls.chain certificates authorities
  ((t.verifier.verify presented [chain]).adapt .verify : Admission σ Unit)

/-- The certificate of a client that has come through the handshake, once it is let in. -/
def screen (presented : List Octets) : Admission σ (Option Certificate) := do
  let leaf ← MonadExcept.ofExcept (presented.head?.mapM parse)
  if t.security = .verified then t.gate presented
  return leaf

/-- Lets a client in that offers certificates, or refuses it. -/
def accept (now : Moment) (offered : List Octets) : Admission σ (Option Certificate) := do
  t.screen (← MonadExcept.ofExcept (t.handshake now offered))

end Terminator
end MqttGateway
