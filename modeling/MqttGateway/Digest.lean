import MqttGateway.Digest.Sha1
import MqttGateway.Digest.Sha256
import MqttGateway.Digest.Sha512
/-!
# Message digests
-/
namespace MqttGateway

inductive DigestAlgorithm
  | sha1 | sha256 | sha384 | sha512
  deriving DecidableEq, Repr

def DigestAlgorithm.hash : DigestAlgorithm → Octets → Octets
  | .sha1 => Digest.Sha1.hash
  | .sha256 => Digest.Sha256.hash
  | .sha384 => Digest.Sha512.hash384
  | .sha512 => Digest.Sha512.hash

end MqttGateway
