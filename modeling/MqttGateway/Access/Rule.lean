import MqttGateway.Octets
/-!
# Access rules

What a rule looks at: who the client is, what it wants to do and to which topics. The topics of a
rule do not concern a rule about connecting.
-/
namespace MqttGateway.Access

inductive Verdict
  | allow
  | deny
  deriving DecidableEq, Repr

def Verdict.name : Verdict → String
  | .allow => "allow"
  | .deny => "deny"

def Verdict.ofName? : String → Option Verdict
  | "allow" => some .allow
  | "deny" => some .deny
  | _ => none

inductive Action
  | connect | publish | subscribe | unsubscribe
  deriving DecidableEq, Repr

def Action.name : Action → String
  | .connect => "connect"
  | .publish => "publish"
  | .subscribe => "subscribe"
  | .unsubscribe => "unsubscribe"

def Action.ofName? : String → Option Action
  | "connect" => some .connect
  | "publish" => some .publish
  | "subscribe" => some .subscribe
  | "unsubscribe" => some .unsubscribe
  | _ => none

/-- What is asked of the client's identity; an exact value rules out the pattern beside it. -/
structure Conditions where
  username : Option String := none
  usernamePattern : Option String := none
  clientId : Option String := none
  clientIdPattern : Option String := none
  clientAddress : Option String := none
  commonName : Option String := none
  commonNamePattern : Option String := none
  deriving DecidableEq, Repr

structure Rule where
  name : String
  conditions : Conditions := {}
  topics : List String := []
  actions : List Action := []
  verdict : Verdict
  priority : Int32 := 0
  deriving DecidableEq, Repr

end MqttGateway.Access
