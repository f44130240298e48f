import MqttGateway.Access.Rule
import MqttGateway.Revocation.Method
/-!
# Settings

What can be configured about a gateway, the values that stand where nothing is configured, and the
combinations that make no sense.
-/
namespace MqttGateway

namespace Settings

structure Listener where
  address : String := "0.0.0.0:1883"
  target : String := "localhost:1884"
  deriving DecidableEq, Repr

structure Tls where
  certFile : Option String := none
  keyFile : Option String := none
  clientCaFile : Option String := none
  deriving DecidableEq, Repr

/-- A depth counts certificates from the leaf; zero stands for the leaf alone. -/
structure Ocsp where
  depth : UInt64 := 0
  responderUrl : Option String := none
  deriving DecidableEq, Repr

structure Crl where
  depth : UInt64 := 1
  offlineFile : Option String := none
  offlineIssuerFile : Option String := none
  pointUrl : Option String := none
  pointIssuerFile : Option String := none
  pointSignCheck : Bool := false
  deriving DecidableEq, Repr

structure Revocation where
  methods : List ValidationMethod := []
  timeoutSeconds : UInt64 := 10
  ocsp : Ocsp := {}
  crl : Crl := {}
  deriving DecidableEq, Repr

structure Acl where
  enabled : Bool := false
  defaultVerdict : Access.Verdict := .allow
  rules : List Access.Rule := []
  deriving DecidableEq, Repr

structure Policy where
  topicPrefix : Option String := none
  deriving DecidableEq, Repr

structure General where
  logPackets : Bool := false
  deriving DecidableEq, Repr

end Settings

structure Settings where
  listener : Settings.Listener := {}
  tls : Settings.Tls := {}
  revocation : Settings.Revocation := {}
  acl : Settings.Acl := {}
  policy : Settings.Policy := {}
  general : Settings.General := {}
  deriving DecidableEq, Repr

namespace Settings

/-- The files that the settings name. -/
def files (s : Settings) : List String :=
  let { certFile, keyFile, clientCaFile } := s.tls
  let { offlineFile, offlineIssuerFile, pointIssuerFile, .. } := s.revocation.crl
  [certFile, keyFile, clientCaFile, offlineFile, offlineIssuerFile, pointIssuerFile].filterMap id

inductive Inconsistency
  | halfKeyPair
  | caWithoutKeyPair
  | methodsWithoutCa
  deriving DecidableEq, Repr

def Inconsistency.message : Inconsistency → String
  | .halfKeyPair => "tls cert-file and key-file must be configured together"
  | .caWithoutKeyPair => "tls client-ca-file requires cert-file and key-file"
  | .methodsWithoutCa =>
    "client certificate validation methods require tls client-ca-file"

def inconsistency? (s : Settings) : Option Inconsistency :=
  if s.tls.certFile.isSome ≠ s.tls.keyFile.isSome then some .halfKeyPair
  else if s.tls.clientCaFile.isSome ∧ s.tls.certFile.isNone then some .caWithoutKeyPair
  else if s.revocation.methods ≠ [] ∧ s.tls.clientCaFile.isNone then some .methodsWithoutCa
  else none

end Settings
end MqttGateway
