import MqttGateway.Certificate.Basic
import MqttGateway.Network.Address
import MqttGateway.Packet.Basic
/-!
# Sessions

Who a connected client is: what its CONNECT says, the certificate it has shown and where it comes
from. An absent name or password is an empty one.
-/
namespace MqttGateway

structure Session where
  id : String := ""
  username : String := ""
  password : Octets := []
  certificate : Option Certificate := none
  peer : Option Endpoint := none
  deriving DecidableEq, Repr

/-- What a client wants to publish. -/
structure Publication where
  topic : String
  payload : Octets
  deriving DecidableEq, Repr

def Publish.publication (p : Publish) : Publication :=
  ⟨p.topic, p.payload⟩

def Publish.withPublication (p : Publish) (content : Publication) : Publish :=
  { p with topic := content.topic, payload := content.payload }

namespace Session

def ofCertificate (certificate : Option Certificate) : Session :=
  { certificate }

/-- The client id as it is shown. -/
def shownId (s : Session) : String :=
  if s.id = "" then "unknown" else s.id

def commonName? (s : Session) : Option String :=
  s.certificate.bind (·.subject.commonName?)

/-- The session of a client that identifies itself by a CONNECT. -/
def withConnect (s : Session) (c : Connect) : Session :=
  { s with
    id := c.clientId, username := c.username.getD "", password := c.password.getD [] }

def sameIdentity (s t : Session) : Bool :=
  s.id == t.id && s.username == t.username && s.password == t.password

end Session

/-- The CONNECT with the identity of a session in place of its own. -/
def Connect.withIdentity (c : Connect) (s : Session) : Connect :=
  { c with
    clientId := s.id
    username := if s.username = "" then none else some s.username
    password := if s.password = [] then none else some s.password }

end MqttGateway
