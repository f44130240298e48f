import MqttGateway.Pattern.Reader
import MqttGateway.Session
import MqttGateway.Settings.Basic
import MqttGateway.Topic.Filter
/-!
# Access decisions

The rules of an access list are compiled once and kept with those of higher priority first, rules
of equal priority in their configured order. The first rule that applies decides. Where none does,
the default verdict decides about topics, while connecting is allowed.
-/
namespace MqttGateway.Access

/-- The fields of a rule that are matched by patterns. -/
inductive PatternField
  | username | clientId | commonName
  deriving DecidableEq, Repr

def PatternField.name : PatternField → String
  | .username => "username"
  | .clientId => "client_id"
  | .commonName => "common_name"

inductive RuleFault
  | pattern (rule : String) (field : PatternField) (fault : PatternFault)
  | address (rule : String)
  deriving DecidableEq, Repr

def RuleFault.message : RuleFault → String
  | .pattern rule field fault =>
    "failed to compile ACL rule '" ++ rule ++ "': Invalid " ++ field.name ++ " pattern: " ++
      fault.message
  | .address rule =>
    "failed to compile ACL rule '" ++ rule ++ "': Invalid IP/CIDR: invalid IP address syntax"

structure CompiledRule where
  rule : Rule
  username : Option Pattern
  clientId : Option Pattern
  commonName : Option Pattern
  network : Option Network

/-- The pattern that a condition asks for; an exact text comes before a pattern. -/
def compilePattern (exact written : Option String) : Except PatternFault (Option Pattern) :=
  match exact, written with
  | some text, _ => (Pattern.ofExact text).map some
  | none, some text => (Pattern.ofText text).map some
  | none, none => .ok none

def compileNetwork (address : Option String) : Option (Option Network) :=
  match address with
  | none => some none
  | some text => (Network.ofText? text).map some

namespace CompiledRule

def ofRule (rule : Rule) : Except RuleFault CompiledRule := do
  let c := rule.conditions
  let username ←
    (compilePattern c.username c.usernamePattern).mapError (.pattern rule.name .username)
  let clientId ←
    (compilePattern c.clientId c.clientIdPattern).mapError (.pattern rule.name .clientId)
  let commonName ← (compilePattern c.commonName c.commonNamePattern).mapError
    (.pattern rule.name .commonName)
  match compileNetwork c.clientAddress with
  | some network => return { rule, username, clientId, commonName, network }
  | none => throw (.address rule.name)

/-- Whether a condition, if there is one, holds of a text, if there is one. -/
def fits (condition : Option Pattern) (text : Option String) : Bool :=
  match condition, text with
  | none, _ => true
  | some p, some text => p.isFoundIn text
  | some _, none => false

def covers (condition : Option Network) (peer : Option Endpoint) : Bool :=
  match condition, peer with
  | none, _ => true
  | some network, some peer => network.contains peer.address
  | some _, none => false

/-- Whether the rule concerns the client; one without a username fits no condition on it. -/
def fitsSession (r : CompiledRule) (s : Session) : Bool :=
  fits r.username (if s.username = "" then none else some s.username)
    && fits r.clientId (some s.id)
    && covers r.network s.peer
    && fits r.commonName s.commonName?

/-- A rule that names no actions concerns all those on topics. -/
def fitsAction (r : CompiledRule) (action : Action) : Bool :=
  match action with
  | .connect => r.rule.actions.contains .connect
  | action => r.rule.actions.isEmpty || r.rule.actions.contains action

def fitsTopic (r : CompiledRule) (topic : Option String) : Bool :=
  match topic with
  | none => true
  | some topic => r.rule.topics.any fun filter => Topic.isCovered topic filter

def applies (r : CompiledRule) (s : Session) (action : Action) (topic : Option String) : Bool :=
  r.fitsSession s && r.fitsAction action && r.fitsTopic topic

end CompiledRule

inductive Decision
  | disabled
  | byRule (rule : String) (verdict : Verdict)
  | byDefault (verdict : Verdict)
  deriving DecidableEq, Repr

namespace Decision

def verdict : Decision → Verdict
  | .disabled => .allow
  | .byRule _ verdict => verdict
  | .byDefault verdict => verdict

def isAllowed (d : Decision) : Bool :=
  d.verdict == .allow

def rule? : Decision → Option String
  | .byRule rule _ => some rule
  | _ => none

def reason : Decision → String
  | .disabled => "ACL disabled"
  | .byRule rule .allow => "Allowed by rule: " ++ rule
  | .byRule rule .deny => "Denied by rule: " ++ rule
  | .byDefault .allow => "No matching rule, default allow"
  | .byDefault .deny => "No matching rule, default deny"

end Decision

structure AccessList where
  enabled : Bool := false
  defaultVerdict : Verdict := .allow
  rules : List CompiledRule := []

namespace AccessList

/-- Puts a rule behind those of at least its priority. -/
def insert (r : CompiledRule) : List CompiledRule → List CompiledRule
  | [] => [r]
  | q :: qs => if q.rule.priority < r.rule.priority then r :: q :: qs else q :: insert r qs

def sorted (rules : List CompiledRule) : List CompiledRule :=
  rules.foldl (fun done r => insert r done) []

def ofSettings (s : Settings.Acl) : Except RuleFault AccessList := do
  let rules ← s.rules.mapM CompiledRule.ofRule
  return ⟨s.enabled, s.defaultVerdict, sorted rules⟩

def decide (l : AccessList) (s : Session) (action : Action) (topic : Option String) : Decision :=
  if !l.enabled then .disabled
  else
    match l.rules.find? (·.applies s action topic) with
    | some r => .byRule r.rule.name r.rule.verdict
    | none => .byDefault (if action = .connect then .allow else l.defaultVerdict)

def decideConnect (l : AccessList) (s : Session) : Decision :=
  l.decide s .connect none

def decidePublish (l : AccessList) (s : Session) (topic : String) : Decision :=
  l.decide s .publish (some topic)

def decideSubscribe (l : AccessList) (s : Session) (filter : String) : Decision :=
  l.decide s .subscribe (some filter)

end AccessList
end MqttGateway.Access
