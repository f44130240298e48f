import MqttGateway.Access.Decision
import MqttGateway.Topic.Scope
/-!
# Policies

A policy decides by an access list and moves topics into the scope of a session. Rules see a topic
as it is called within the scope. A topic that already carries the scope is not moved again.
-/
namespace MqttGateway

structure Policy where
  access : Access.AccessList := {}
  scope : Option Scope := none

namespace Policy

/-- An empty template for the scope counts as none. -/
def ofSettings (s : Settings) : Except Access.RuleFault Policy := do
  let access ← Access.AccessList.ofSettings s.acl
  return ⟨access, (s.policy.topicPrefix.filter (· ≠ "")).map Scope.mk⟩

/-- A topic as the rules see it and as it is forwarded. -/
structure Localized where
  inner : String
  forwarded : String
  deriving DecidableEq, Repr

def localize (p : Policy) (s : Session) (topic : String) : Localized :=
  match p.scope with
  | none => ⟨topic, topic⟩
  | some scope =>
    match scope.strip? topic s.username s.id with
    | some inner => ⟨inner, topic⟩
    | none => ⟨topic, scope.apply topic s.username s.id⟩

inductive Denial
  | decided (decision : Access.Decision)
  | badName (topic : String)
  | badFilter (filter : String)
  deriving DecidableEq, Repr

def Denial.message : Denial → String
  | .decided decision => decision.reason
  | .badName topic => "invalid topic name '" ++ topic ++ "'"
  | .badFilter filter => "invalid topic filter '" ++ filter ++ "'"

def granted {α : Type} (decision : Access.Decision) (a : α) : Except Denial α :=
  if decision.isAllowed then .ok a else .error (.decided decision)

def authorizeConnect (p : Policy) (s : Session) : Except Denial Session :=
  granted (p.access.decideConnect s) s

def authorizePublish (p : Policy) (s : Session) (content : Publication) :
    Except Denial Publication :=
  if Topic.isName content.topic then
    let topic := p.localize s content.topic
    granted (p.access.decidePublish s topic.inner) { content with topic := topic.forwarded }
  else .error (.badName content.topic)

def authorizeFilter (p : Policy) (s : Session) (filter : String) : Except Denial String :=
  if Topic.isFilter filter then
    let topic := p.localize s filter
    granted (p.access.decideSubscribe s topic.inner) topic.forwarded
  else .error (.badFilter filter)

/-- Every filter as it is forwarded, or the denial of the first that is denied. -/
def authorizeSubscribe (p : Policy) (s : Session) (filters : List String) :
    Except Denial (List String) :=
  filters.mapM (p.authorizeFilter s)

end Policy
end MqttGateway
