import MqttGateway.Settings.Basic
import MqttGateway.Text.Quoted
/-!
# Overlays

Single settings are replaced by texts looked up under fixed names, in a fixed order. A blank text
counts as none. The first text that cannot be read ends the overlay; what came before it stays.
-/
namespace MqttGateway.Settings

inductive Key
  | address | target | certFile | keyFile | clientCaFile | methods | ocspDepth | responderUrl
  | crlDepth | offlineFile | offlineIssuerFile | pointUrl | pointIssuerFile | pointSignCheck
  | logPackets
  deriving DecidableEq, Repr

namespace Key

/-- Every key in the order in which an overlay looks them up. -/
def all : List Key :=
  [.address, .target, .certFile, .keyFile, .clientCaFile, .methods, .ocspDepth, .responderUrl,
   .crlDepth, .offlineFile, .offlineIssuerFile, .pointUrl, .pointIssuerFile, .pointSignCheck,
   .logPackets]

def name : Key → String
  | .address => "ADDRESS"
  | .target => "TARGET"
  | .certFile => "CERT_FILE"
  | .keyFile => "KEY_FILE"
  | .clientCaFile => "CLIENT_CA_FILE"
  | .methods => "CLIENT_CERT_VALIDATION_METHODS"
  | .ocspDepth => "OCSP_DEPTH"
  | .responderUrl => "OCSP_RESPONDER_URL"
  | .crlDepth => "CRL_DEPTH"
  | .offlineFile => "OFFLINE_CRL_FILE"
  | .offlineIssuerFile => "OFFLINE_CRL_ISSUER_CERT_FILE"
  | .pointUrl => "CRL_DISTRIBUTION_POINTS"
  | .pointIssuerFile => "CRL_DISTRIBUTION_POINTS_ISSUER_CERT_FILE"
  | .pointSignCheck => "CRL_DISTRIBUTION_POINTS_SIGN_CHECK"
  | .logPackets => "LOG_PACKETS"

end Key

inductive ValueFault
  | emptyNumber
  | invalidDigit
  | numberTooLarge
  | notBoolean
  deriving DecidableEq, Repr

def ValueFault.message : ValueFault → String
  | .emptyNumber => "cannot parse integer from empty string"
  | .invalidDigit => "invalid digit found in string"
  | .numberTooLarge => "number too large to fit in target type"
  | .notBoolean => "expected a boolean"

inductive OverlayFault
  | value (key : Key) (text : String) (reason : ValueFault)
  | method (text : String)
  deriving DecidableEq, Repr

def OverlayFault.message : OverlayFault → String
  | .value key text reason =>
    "invalid value " ++ Quoted.encode text ++ " for " ++ key.name ++ ": " ++ reason.message
  | .method text => "invalid client validation method " ++ Quoted.encode text

/-- Reads decimal digits after `n`; of a bad digit and an overflow the earlier one is reported. -/
def readDigits (n : Nat) : List Char → Except ValueFault Nat
  | [] => .ok n
  | c :: cs =>
    if c.isDigit then
      let n := n * 10 + (c.toNat - 48)
      if n < Nat.pow 2 64 then readDigits n cs else .error .numberTooLarge
    else .error .invalidDigit

/-- Reads a decimal number below `2 ^ 64`, with or without a plus sign. -/
def readNumber (text : String) : Except ValueFault UInt64 :=
  match (Letters.trim text).toList with
  | [] => .error .emptyNumber
  | ['+'] => .error .invalidDigit
  | '+' :: cs => (readDigits 0 cs).map UInt64.ofNat
  | cs => (readDigits 0 cs).map UInt64.ofNat

def readBool (text : String) : Except ValueFault Bool :=
  let word := Letters.toLowerAscii (Letters.trim text)
  if ["1", "true", "yes", "on"].contains word then .ok true
  else if ["0", "false", "no", "off"].contains word then .ok false
  else .error .notBoolean

/-- Sets what a key stands for to the value that a text holds. -/
def set (s : Settings) (key : Key) (text : String) : Except OverlayFault Settings :=
  let { listener, tls, revocation, general, .. } := s
  let { ocsp, crl, .. } := revocation
  match key with
  | .address => .ok { s with listener := { listener with address := text } }
  | .target => .ok { s with listener := { listener with target := text } }
  | .certFile => .ok { s with tls := { tls with certFile := text } }
  | .keyFile => .ok { s with tls := { tls with keyFile := text } }
  | .clientCaFile => .ok { s with tls := { tls with clientCaFile := text } }
  | .methods => do
    let methods ← (ValidationMethod.ofNames text).mapError .method
    return { s with revocation := { revocation with methods } }
  | .ocspDepth => do
    let depth ← (readNumber text).mapError (.value key text)
    return { s with revocation := { revocation with ocsp := { ocsp with depth } } }
  | .responderUrl =>
    .ok { s with revocation := { revocation with ocsp := { ocsp with responderUrl := text } } }
  | .crlDepth => do
    let depth ← (readNumber text).mapError (.value key text)
    return { s with revocation := { revocation with crl := { crl with depth } } }
  | .offlineFile =>
    .ok { s with revocation := { revocation with crl := { crl with offlineFile := text } } }
  | .offlineIssuerFile =>
    .ok { s with revocation := { revocation with crl := { crl with offlineIssuerFile := text } } }
  | .pointUrl =>
    .ok { s with revocation := { revocation with crl := { crl with pointUrl := text } } }
  | .pointIssuerFile =>
    .ok { s with revocation := { revocation with crl := { crl with pointIssuerFile := text } } }
  | .pointSignCheck => do
    let pointSignCheck ← (readBool text).mapError (.value key text)
    return { s with revocation := { revocation with crl := { crl with pointSignCheck } } }
  | .logPackets => do
    let logPackets ← (readBool text).mapError (.value key text)
    return { s with general := { general with logPackets } }

/-- The text a lookup gives for a key, unless it is blank. -/
def given? (namePrefix : String) (lookup : String → Option String) (key : Key) : Option String :=
  (lookup (namePrefix ++ key.name)).filter fun text => Letters.trim text ≠ ""

def overlayKeys (namePrefix : String) (lookup : String → Option String) :
    List Key → Settings → Settings × Option OverlayFault
  | [], s => (s, none)
  | key :: keys, s =>
    match given? namePrefix lookup key with
    | none => overlayKeys namePrefix lookup keys s
    | some text =>
      match s.set key text with
      | .ok s => overlayKeys namePrefix lookup keys s
      | .error fault => (s, some fault)

/-- The settings as the overlay leaves them and what ended it early. -/
def overlay (s : Settings) (namePrefix : String) (lookup : String → Option String) :
    Settings × Option OverlayFault :=
  overlayKeys namePrefix lookup Key.all s

end MqttGateway.Settings
