import MqttGateway.Topic.Filter
/-!
# Scopes

A scope is the part of the topic tree that a session's topics live in. Its template may name the
session's user and client; the username is put in first, so that a username which spells the other
placeholder is itself replaced by the client id.
-/
namespace MqttGateway

/-- Replaces each occurrence of the placeholder, from the left, by the value. -/
def substitute (placeholder value : List Char) : List Char → List Char
  | [] => []
  | c :: cs =>
    if placeholder.isPrefixOf (c :: cs) then
      value ++ substitute placeholder value (cs.drop (placeholder.length - 1))
    else c :: substitute placeholder value cs
  termination_by text => text.length
  decreasing_by all_goals simp; try omega

/-- What follows `start` in a text that begins with it. -/
def remainder? : (start text : List Char) → Option (List Char)
  | [], text => some text
  | _ :: _, [] => none
  | s :: start, t :: text => if s = t then remainder? start text else none

structure Scope where
  template : String
  deriving DecidableEq, Repr

namespace Scope

def userPlaceholder : List Char := "\x7busername\x7d".toList

def clientPlaceholder : List Char := "\x7bclient_id\x7d".toList

def fill (scope : Scope) (username clientId : String) : List Char :=
  substitute clientPlaceholder clientId.toList
    (substitute userPlaceholder username.toList scope.template.toList)

/-- The filled template, closed by a slash unless it is empty or ends in one. -/
def root (scope : Scope) (username clientId : String) : List Char :=
  let filled := scope.fill username clientId
  if filled.isEmpty || filled.getLast? == some '/' then filled else filled ++ ['/']

def render (scope : Scope) (username clientId : String) : String :=
  String.ofList (scope.fill username clientId)

/-- Moves a topic name or filter into the scope. -/
def apply (scope : Scope) (topic username clientId : String) : String :=
  String.ofList (scope.root username clientId ++ topic.toList)

/-- The topic as it is called within the scope, if it lies there. -/
def strip? (scope : Scope) (topic username clientId : String) : Option String :=
  (remainder? (scope.root username clientId) topic.toList).map String.ofList

end Scope
end MqttGateway
