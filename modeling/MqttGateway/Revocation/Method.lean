import MqttGateway.Text.Letters
/-!
# Validation methods

The ways to find out whether a certificate has been revoked, and their names.
-/
namespace MqttGateway

inductive ValidationMethod
  | ocsp
  | crl
  deriving DecidableEq, Repr

namespace ValidationMethod

def name : ValidationMethod → String
  | .ocsp => "OCSP"
  | .crl => "CRL"

/-- Reads a name in either case of its letters and with blanks around it. -/
def ofName? (s : String) : Option ValidationMethod :=
  let word := Letters.toLowerAscii (Letters.trim s)
  if word = "ocsp" then some .ocsp else if word = "crl" then some .crl else none

/-- Reads names separated by commas, or gives the first that is none; blank entries are skipped. -/
def ofNames (s : String) : Except String (List ValidationMethod) :=
  let words := (s.splitOn ",").map Letters.trim
  (words.filter (· ≠ "")).mapM fun word =>
    match ofName? word with
    | some method => .ok method
    | none => .error word

end ValidationMethod
end MqttGateway
