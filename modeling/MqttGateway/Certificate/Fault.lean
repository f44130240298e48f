import MqttGateway.Pem
import MqttGateway.Der.Basic
/-!
# What can be wrong with a certificate

The details of a fault in the encoding are not kept: it is either that octets are missing or that
those present are wrong.
-/
namespace MqttGateway

def Der.Fault.message : Der.Fault → String
  | .short => "Parsing requires more data"
  | .bad => "Parsing Error"

inductive SignatureFault
  | unsupported
  | mismatch
  deriving DecidableEq, Repr

def SignatureFault.message : SignatureFault → String
  | .unsupported => "signature unsupported algorithm"
  | .mismatch => "signature verification error"

inductive CertificateFault
  | encoding (fault : Der.Fault)
  | armour (fault : PemFault)
  | unreadable (path : String)
  | signature (subject issuer : String) (reason : SignatureFault)
  | dataSignature (signer : String) (reason : SignatureFault)
  deriving DecidableEq, Repr

/-- The text for a file that does not exist. -/
def missingFile : String := "No such file or directory (os error 2)"

def CertificateFault.message : CertificateFault → String
  | .encoding fault => "failed to parse certificate: " ++ fault.message
  | .armour fault => fault.message
  | .unreadable path => "failed to read " ++ path ++ ": " ++ missingFile
  | .signature subject issuer reason =>
    "signature of " ++ subject ++ " does not verify against " ++ issuer ++ ": " ++ reason.message
  | .dataSignature signer reason =>
    "signature by " ++ signer ++ " rejected: " ++ reason.message

end MqttGateway
