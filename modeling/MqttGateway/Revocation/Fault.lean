import MqttGateway.Certificate.Fault
import MqttGateway.Moment
import MqttGateway.Revocation.List
import MqttGateway.Revocation.Ocsp.Response
/-!
# Why a client certificate is refused

Everything that can keep a certificate from being found unrevoked, with its text.
-/
namespace MqttGateway

/-- What can be wrong with the answer of a responder. -/
inductive OcspFault
  | malformed (fault : Der.Fault)
  | empty
  | bodyType (type : Der.Oid)
  | algorithm (fault : Der.Fault)
  | unauthorized (subject : String)
  | signature (fault : CertificateFault)
  | digest (algorithm : Der.Oid)
  | date
  | silent (serial : String)
  deriving DecidableEq, Repr

def OcspFault.message : OcspFault → String
  | .malformed fault => "malformed response: " ++ fault.message
  | .empty => "successful response carries no response bytes"
  | .bodyType type => "unsupported response type " ++ type.text
  | .algorithm fault => "invalid signature algorithm: " ++ fault.message
  | .unauthorized subject =>
    "responder certificate " ++ subject ++ " is not authorized to sign OCSP responses"
  | .signature fault => "response signature does not verify: " ++ fault.message
  | .digest oid => "unsupported CertID hash algorithm " ++ oid.text
  | .date => "Invalid DateTime"
  | .silent serial => "no response for certificate with serial number " ++ serial

inductive VerifyFault
  | noCertificate
  | certificate (fault : CertificateFault)
  | issuerUnavailable (subject : String)
  | noResponder (subject : String)
  /-- A request that failed, with the status of the answer if there was one. -/
  | http (url : String) (status : Option Nat)
  | response (fault : OcspFault)
  | serverFailed (status : Ocsp.ResponseStatus)
  | unknown (serial : String)
  | revoked (serial : String) (time : Instant)
  | noList
  | list (fault : RevocationListFault)
  | listExpired
  | listSignature (fault : SignatureFault)
  | unreadableList (path : String)
  deriving DecidableEq, Repr

def VerifyFault.message : VerifyFault → String
  | .noCertificate => "client certificate not received"
  | .certificate fault => fault.message
  | .issuerUnavailable subject =>
    "neither the issuer certificate is present in the chain nor is the issuer certificate URL " ++
      "present in AIA of " ++ subject
  | .noResponder subject =>
    "no OCSP responder configured and no OCSP server in AIA of " ++ subject
  | .http url _ => "request to " ++ url ++ " failed"
  | .response fault => "invalid OCSP response: " ++ fault.message
  | .serverFailed status => "OCSP responder failed with status " ++ status.text
  | .unknown serial => "OCSP responder does not know certificate with serial number " ++ serial
  | .revoked serial time =>
    "certificate revoked: serial number " ++ serial ++ " revoked at " ++ time.render
  | .noList =>
    "neither offline crl file nor crl distribution points in certificate nor configured crl " ++
      "distribution points exist"
  | .list fault => fault.message
  | .listExpired => "crl expired"
  | .listSignature fault => "failed to verify CRL signature: " ++ fault.message
  | .unreadableList path => "failed to read offline CRL " ++ path ++ ": " ++ missingFile

end MqttGateway
