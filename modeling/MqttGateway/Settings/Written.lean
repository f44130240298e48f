import MqttGateway.Settings.Basic
import MqttGateway.Json.Shape
import MqttGateway.Json.Reader
import MqttGateway.Text.Utf8
/-!
# Written settings

The JSON form of settings. Every part may be left out but the name and the verdict of a rule; what
is left out has its usual value.
-/
namespace MqttGateway.Settings

open Json

def listenerShape : Shape Listener := Record.shape {
  blank := {}
  fields := [
    .of "address" .string (·.address) fun s a => { s with address := a },
    .of "target" .string (·.target) fun s a => { s with target := a }]
  required := [] }

def tlsShape : Shape Tls := Record.shape {
  blank := {}
  fields := [
    .of "cert-file" (.optional .string) (·.certFile) fun s a => { s with certFile := a },
    .of "key-file" (.optional .string) (·.keyFile) fun s a => { s with keyFile := a },
    .of "client-ca-file" (.optional .string) (·.clientCaFile)
      fun s a => { s with clientCaFile := a }]
  required := [] }

def ocspShape : Shape Ocsp := Record.shape {
  blank := {}
  fields := [
    .of "depth" .uint64 (·.depth) fun s a => { s with depth := a },
    .of "responder-url" (.optional .string) (·.responderUrl)
      fun s a => { s with responderUrl := a }]
  required := [] }

def crlShape : Shape Crl := Record.shape {
  blank := {}
  fields := [
    .of "depth" .uint64 (·.depth) fun s a => { s with depth := a },
    .of "offline-crl-file" (.optional .string) (·.offlineFile)
      fun s a => { s with offlineFile := a },
    .of "offline-crl-issuer-cert-file" (.optional .string) (·.offlineIssuerFile)
      fun s a => { s with offlineIssuerFile := a },
    .of "distribution-points" (.optional .string) (·.pointUrl) fun s a => { s with pointUrl := a },
    .of "distribution-points-issuer-cert-file" (.optional .string) (·.pointIssuerFile)
      fun s a => { s with pointIssuerFile := a },
    .of "distribution-points-sign-check" .bool (·.pointSignCheck)
      fun s a => { s with pointSignCheck := a }]
  required := [] }

def methodShape : Shape ValidationMethod :=
  .word ValidationMethod.name ValidationMethod.ofName?

def revocationShape : Shape Revocation := Record.shape {
  blank := {}
  fields := [
    .of "methods" (.list methodShape) (·.methods) fun s a => { s with methods := a },
    .of "http-timeout-secs" .uint64 (·.timeoutSeconds) fun s a => { s with timeoutSeconds := a },
    .of "ocsp" ocspShape (·.ocsp) fun s a => { s with ocsp := a },
    .of "crl" crlShape (·.crl) fun s a => { s with crl := a }]
  required := [] }

def verdictShape : Shape Access.Verdict :=
  .choice Access.Verdict.name Access.Verdict.ofName?

def actionShape : Shape Access.Action :=
  .choice Access.Action.name Access.Action.ofName?

def conditionsShape : Shape Access.Conditions := Record.shape {
  blank := {}
  fields := [
    .of "username" (.optional .string) (·.username) fun s a => { s with username := a },
    .of "username-regex" (.optional .string) (·.usernamePattern)
      fun s a => { s with usernamePattern := a },
    .of "client-id" (.optional .string) (·.clientId) fun s a => { s with clientId := a },
    .of "client-id-regex" (.optional .string) (·.clientIdPattern)
      fun s a => { s with clientIdPattern := a },
    .of "client-ip" (.optional .string) (·.clientAddress) fun s a => { s with clientAddress := a },
    .of "common-name" (.optional .string) (·.commonName) fun s a => { s with commonName := a },
    .of "common-name-regex" (.optional .string) (·.commonNamePattern)
      fun s a => { s with commonNamePattern := a }]
  required := [] }

def ruleShape : Shape Access.Rule := Record.shape {
  blank := { name := "", verdict := .deny }
  fields := [
    .of "name" .string (·.name) fun s a => { s with name := a },
    .of "match" conditionsShape (·.conditions) fun s a => { s with conditions := a },
    .of "topics" (.list .string) (·.topics) fun s a => { s with topics := a },
    .of "actions" (.list actionShape) (·.actions) fun s a => { s with actions := a },
    .of "decision" verdictShape (·.verdict) fun s a => { s with verdict := a },
    .of "priority" .int32 (·.priority) fun s a => { s with priority := a }]
  required := ["name", "decision"] }

def aclShape : Shape Acl := Record.shape {
  blank := {}
  fields := [
    .of "enabled" .bool (·.enabled) fun s a => { s with enabled := a },
    .of "default-action" verdictShape (·.defaultVerdict) fun s a => { s with defaultVerdict := a },
    .of "rules" (.list ruleShape) (·.rules) fun s a => { s with rules := a }]
  required := [] }

def policyShape : Shape Policy := Record.shape {
  blank := {}
  fields := [
    .of "topic-prefix" (.optional .string) (·.topicPrefix) fun s a => { s with topicPrefix := a }]
  required := [] }

def generalShape : Shape General := Record.shape {
  blank := {}
  fields := [.of "log-packets" .bool (·.logPackets) fun s a => { s with logPackets := a }]
  required := [] }

def shape : Shape Settings := Record.shape {
  blank := {}
  fields := [
    .of "listener" listenerShape (·.listener) fun s a => { s with listener := a },
    .of "tls" tlsShape (·.tls) fun s a => { s with tls := a },
    .of "revocation" revocationShape (·.revocation) fun s a => { s with revocation := a },
    .of "acl" aclShape (·.acl) fun s a => { s with acl := a },
    .of "policy" policyShape (·.policy) fun s a => { s with policy := a },
    .of "general" generalShape (·.general) fun s a => { s with general := a }]
  required := [] }

inductive LoadFault
  /-- The file is not a text. -/
  | unreadable
  | unparsable (reason : Misfit)
  deriving DecidableEq, Repr

/-- Reads the settings that the octets of a file hold. -/
def load (file : Octets) : Except LoadFault Settings := do
  let text ← (Utf8.decode file).mapError fun _ => .unreadable
  let (value, fault) := Json.read text
  let settings ← (shape.read value).mapError .unparsable
  (noFault fault).mapError .unparsable
  return settings

end MqttGateway.Settings
