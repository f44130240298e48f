import MqttGateway.Revocation.Inquiry
import MqttGateway.Revocation.Method
/-!
# Verifying clients

A verifier is a list of checks, each with the number of certificates from the leaf that it is made
on. The certificates come as chains in which each is followed by its issuer, or as they were
presented, in any order. Every check has to pass.
-/
namespace MqttGateway

structure Check (σ : Type) where
  method : ValidationMethod
  depth : Nat
  run : Certificate → Option Certificate → Inquiry σ Unit

abbrev Verifier (σ : Type) := List (Check σ)

namespace Verifier

/-- Certificates of a chain with their issuers; the last stands for its own. -/
def pairChain : List Certificate → List (Certificate × Option Certificate)
  | [] => []
  | [c] => [(c, some c)]
  | c :: issuer :: rest => (c, some issuer) :: pairChain (issuer :: rest)

/-- Certificates with the issuers found among them. -/
def pairRaw (cs : List Certificate) : List (Certificate × Option Certificate) :=
  cs.map fun c => (c, c.findIssuer? cs)

variable {σ : Type}

/-- Makes a check on as many certificates as it asks for, but at least on the leaf. -/
def runCheck (check : Check σ) (pairs : List (Certificate × Option Certificate)) : Inquiry σ Unit :=
  (pairs.take (max check.depth 1)).forM fun (c, issuer) => check.run c issuer

def runChecks (checks : Verifier σ) (pairs : List (Certificate × Option Certificate)) :
    Inquiry σ Unit :=
  checks.forM fun check => runCheck check pairs

def parse (raw : List Octets) : Except VerifyFault (List Certificate) :=
  raw.mapM fun der => (Certificate.ofDer der).mapError fun fault => .certificate (.encoding fault)

/-- Verifies what a client presented. The presented certificates count only where no chain has
any. -/
def verify (checks : Verifier σ) (raw : List Octets) (chains : List (List Certificate)) :
    Inquiry σ Unit :=
  if checks.isEmpty then return ()
  else if chains.any fun chain => !chain.isEmpty then
    chains.forM fun chain => runChecks checks (pairChain chain)
  else if raw.isEmpty then throw .noCertificate
  else do
    let cs ← MonadExcept.ofExcept (parse raw)
    runChecks checks (pairRaw cs)

end Verifier
end MqttGateway
