import Mathlib.Data.List.TFAE
import MqttGateway.Proofs.Revocation.Lists
import MqttGateway.Proofs.Revocation.Responses
/-!
# Serial numbers in reports

A refused certificate is reported with the numeral of its serial number. Main statement: serial
numbers agree exactly if they are the same number, which is exactly if their numerals are the same.
So a report tells which serial number was refused, and an entry is for a certificate exactly if both
would be reported alike.
-/
namespace MqttGateway

variable {σ α β : Type} {env : Surroundings σ} {c issuer : Certificate} {serial : Octets}

def VerifyFault.serial? : VerifyFault → Option String
  | .revoked serial _ => some serial
  | .unknown serial => some serial
  | .response (.silent serial) => some serial
  | _ => none

def VerifyFault.ReportsOnly (fault : VerifyFault) (serial : Octets) : Prop :=
  ∀ text ∈ fault.serial?, text = Serial.hex serial

theorem VerifyFault.reportsOnly_of_none {fault : VerifyFault} (h : fault.serial? = none)
    (serial : Octets) : fault.ReportsOnly serial := by
  intro text htext
  rw [h] at htext
  cases htext

namespace Inquiry

def ReportsOnly (steps : Inquiry σ α) (serial : Octets) : Prop :=
  ∀ s fault t, Faults steps s fault t → fault.ReportsOnly serial

theorem ReportsOnly.pure (a : α) : (pure a : Inquiry σ α).ReportsOnly serial :=
  fun _ _ _ h => absurd h not_faults_pure

theorem ReportsOnly.bind {steps : Inquiry σ α} {next : α → Inquiry σ β}
    (h : steps.ReportsOnly serial) (hnext : ∀ a, (next a).ReportsOnly serial) :
    (steps >>= next).ReportsOnly serial := by
  intro _ fault t hfault
  obtain hsteps | ⟨a, u, -, hrest⟩ := faults_bind_iff.mp hfault
  · exact h _ fault t hsteps
  · exact hnext a u fault t hrest

theorem reportsOnly_lift_bind {found : StateM σ α} {next : α → Inquiry σ β}
    (hnext : ∀ a, (next a).ReportsOnly serial) :
    (liftM found >>= next : Inquiry σ β).ReportsOnly serial :=
  fun _ fault t h => hnext _ _ fault t (faults_lift_bind_iff.mp h)

theorem reportsOnly_throw {fault : VerifyFault} (h : fault.serial? = none) :
    (throw fault : Inquiry σ α).ReportsOnly serial := by
  intro _ cause _ hfault
  obtain ⟨rfl, -⟩ := faults_throw_iff.mp hfault
  exact VerifyFault.reportsOnly_of_none h serial

theorem reportsOnly_ofExcept {found : Except VerifyFault α}
    (h : ∀ fault, found = .error fault → fault.ReportsOnly serial) :
    (MonadExcept.ofExcept found : Inquiry σ α).ReportsOnly serial :=
  fun _ fault _ hfault => h fault (faults_ofExcept_iff.mp hfault).1

theorem reportsOnly_get (url : String) : (get env url).ReportsOnly serial := by
  refine reportsOnly_lift_bind fun answer => ?_
  cases answer with
  | ok octets => exact .pure octets
  | error status => exact reportsOnly_throw rfl

theorem reportsOnly_post (url : String) (body : Octets) :
    (post env url body).ReportsOnly serial := by
  refine reportsOnly_lift_bind fun answer => ?_
  cases answer with
  | ok octets => exact .pure octets
  | error status => exact reportsOnly_throw rfl

theorem reportsOnly_read (path : String) : (read env path).ReportsOnly serial := by
  refine reportsOnly_lift_bind fun content => ?_
  cases content with
  | some octets => exact .pure octets
  | none => exact reportsOnly_throw rfl

/-- A fault under another name than those of serial numbers reports none. -/
theorem reportsOnly_of_mapError {x : Except α β} {f : α → VerifyFault} {fault : VerifyFault}
    (hf : ∀ a, (f a).serial? = none) (h : x.mapError f = .error fault) :
    fault.ReportsOnly serial := by
  obtain ⟨a, -, rfl⟩ := mapError_eq_error_iff.mp h
  exact VerifyFault.reportsOnly_of_none (hf a) serial

theorem reportsOnly_resolveIssuer (c : Certificate) (paired : Option Certificate) :
    (resolveIssuer env c paired).ReportsOnly serial := by
  unfold resolveIssuer
  split
  · exact .pure c
  split
  · exact .pure _
  split
  · refine (reportsOnly_get _).bind fun body => reportsOnly_ofExcept fun fault h => ?_
    exact reportsOnly_of_mapError (fun _ => rfl) h
  · exact reportsOnly_throw rfl

end Inquiry

/-! ## Responders -/

namespace Ocsp

open Inquiry

theorem concerns_eq_error {id : CertId} {fault : OcspFault}
    (h : concerns id c issuer = .error fault) : fault = .digest id.algorithm := by
  rw [concerns] at h
  split at h
  case isFalse => cases h
  case isTrue =>
    split at h
    case h_1 => cases h
    case h_2 =>
      cases h
      rfl

theorem find_reportsOnly {singles : List SingleResponse} {fault : OcspFault}
    (h : find c issuer singles = .error fault) :
    (VerifyFault.response fault).ReportsOnly c.serial := by
  induction singles with
  | nil =>
    cases h
    rintro _ ⟨⟩
    rfl
  | cons single singles ih =>
    obtain hconcerns | ⟨found, -, hrest⟩ := bind_eq_error_iff.mp h
    · rw [concerns_eq_error hconcerns]
      exact VerifyFault.reportsOnly_of_none rfl c.serial
    · cases found with
      | false => exact ih hrest
      | true =>
        rw [CertStatus.verdict_eq_error hrest]
        exact VerifyFault.reportsOnly_of_none rfl c.serial

theorem signer_reportsOnly {certificates : List Certificate} {fault : VerifyFault}
    (h : signer certificates issuer = .error fault) : fault.ReportsOnly serial := by
  cases certificates with
  | nil => cases h
  | cons first rest =>
    rw [signer] at h
    split at h
    case isTrue => cases h
    case isFalse =>
    obtain hsigned | ⟨_, -, hfit⟩ := bind_eq_error_iff.mp h
    · exact reportsOnly_of_mapError (fun _ => rfl) hsigned
    · split at hfit
      case isTrue => cases hfit
      case isFalse =>
        cases hfit
        exact VerifyFault.reportsOnly_of_none rfl serial

namespace BasicResponse

theorem authenticate_reportsOnly {b : BasicResponse} {fault : VerifyFault}
    (h : b.authenticate issuer = .error fault) : fault.ReportsOnly serial := by
  obtain hembedded | ⟨embedded, -, h⟩ := bind_eq_error_iff.mp h
  · obtain ⟨_, _, _, -, -, hread⟩ := mapM_eq_error_iff.mp hembedded
    exact reportsOnly_of_mapError (fun _ => rfl) hread
  obtain hsigner | ⟨signer, -, h⟩ := bind_eq_error_iff.mp h
  · exact signer_reportsOnly hsigner
  obtain halgorithm | ⟨algorithm, -, h⟩ := bind_eq_error_iff.mp h
  · exact reportsOnly_of_mapError (fun _ => rfl) halgorithm
  · exact reportsOnly_of_mapError (fun _ => rfl) h

theorem verdict_reportsOnly {b : BasicResponse} {fault : VerifyFault}
    (h : b.verdict c issuer = .error fault) : fault.ReportsOnly c.serial := by
  rw [verdict_eq] at h
  obtain hsigned | ⟨_, -, hfind⟩ := bind_eq_error_iff.mp h
  · exact authenticate_reportsOnly hsigned
  · obtain ⟨cause, hcause, rfl⟩ := mapError_eq_error_iff.mp hfind
    exact find_reportsOnly hcause

end BasicResponse

theorem verdict_reportsOnly {octets : Octets} {fault : VerifyFault}
    (h : verdict octets c issuer = .error fault) : fault.ReportsOnly c.serial := by
  obtain hresponse | ⟨response, -, h⟩ := bind_eq_error_iff.mp h
  · exact reportsOnly_of_mapError (fun _ => rfl) hresponse
  split at h
  case isTrue => cases h
  case isFalse =>
  split at h
  case h_1 =>
    cases h
    exact VerifyFault.reportsOnly_of_none rfl c.serial
  case h_2 type body _ =>
  split at h
  case isTrue =>
    cases h
    exact VerifyFault.reportsOnly_of_none rfl c.serial
  case isFalse =>
  obtain hbasic | ⟨basic, -, h⟩ := bind_eq_error_iff.mp h
  · exact reportsOnly_of_mapError (fun _ => rfl) hbasic
  · exact BasicResponse.verdict_reportsOnly h

theorem Verdict.accept_reportsOnly {v : Verdict} {fault : VerifyFault}
    (h : v.accept c = .error fault) : fault.ReportsOnly c.serial := by
  cases v with
  | good => cases h
  | failed status =>
    cases h
    exact VerifyFault.reportsOnly_of_none rfl c.serial
  | _ =>
    cases h
    rintro _ ⟨⟩
    rfl

theorem check_reportsOnly (configured : Option String) (c : Certificate)
    (paired : Option Certificate) : (check env configured c paired).ReportsOnly c.serial := by
  refine (reportsOnly_resolveIssuer c paired).bind fun issuer => ReportsOnly.bind ?_ fun v =>
    reportsOnly_ofExcept fun fault h => Verdict.accept_reportsOnly h
  rw [status]
  split
  · exact reportsOnly_throw rfl
  · exact (reportsOnly_post _ _).bind fun answer =>
      reportsOnly_ofExcept fun fault h => verdict_reportsOnly h

end Ocsp

/-! ## Lists -/

namespace Crl

open Inquiry

theorem checkEntry_reportsOnly {l : RevocationList} {fault : VerifyFault}
    (h : checkEntry l c = .error fault) : fault.ReportsOnly c.serial := by
  rw [checkEntry] at h
  split at h
  case h_1 =>
    cases h
    rintro _ ⟨⟩
    rfl
  case h_2 => cases h

theorem current_reportsOnly (now : Moment) (content : Octets) :
    (current now content : Inquiry σ RevocationList).ReportsOnly serial := by
  refine reportsOnly_ofExcept fun fault h => ?_
  obtain hread | ⟨l, -, h⟩ := bind_eq_error_iff.mp h
  · exact reportsOnly_of_mapError (fun _ => rfl) hread
  obtain hdate | ⟨_, -, ⟨⟩⟩ := bind_eq_error_iff.mp h
  rw [checkDate] at hdate
  split at hdate
  case isTrue => cases hdate
  case isFalse =>
    cases hdate
    exact VerifyFault.reportsOnly_of_none rfl serial

theorem content_reportsOnly (source : Source) : (source.content env).ReportsOnly serial := by
  cases source with
  | named url => exact reportsOnly_get url
  | point url issuer => exact reportsOnly_get url
  | file path issuer => exact reportsOnly_read path

theorem issuer_reportsOnly (source : Source) (c : Certificate) (paired : Option Certificate) :
    (source.issuer env c paired).ReportsOnly serial := by
  cases source with
  | named url =>
    rw [Source.issuer, map_eq_pure_bind]
    exact (reportsOnly_resolveIssuer c paired).bind fun issuer => .pure _
  | point url issuer => exact .pure _
  | file path issuer => exact .pure _

theorem checkIssued_reportsOnly {l : RevocationList} {signer : Option Certificate}
    {fault : VerifyFault} (h : checkIssued l signer = .error fault) :
    fault.ReportsOnly serial := by
  cases signer with
  | none => cases h
  | some issuer => exact reportsOnly_of_mapError (fun _ => rfl) h

theorem fetch_reportsOnly (source : Source) (c : Certificate) (paired : Option Certificate) :
    (fetch env source c paired).ReportsOnly serial := by
  rw [fetch_eq]
  refine reportsOnly_lift_bind fun now => (content_reportsOnly source).bind fun content => ?_
  refine (current_reportsOnly now content).bind fun l => ?_
  refine (issuer_reportsOnly source c paired).bind fun signer => ?_
  exact (reportsOnly_ofExcept fun fault h => checkIssued_reportsOnly h).bind fun _ => .pure l

theorem check_reportsOnly (places : Places) (c : Certificate) (paired : Option Certificate) :
    (check env places c paired).ReportsOnly c.serial := by
  rw [check]
  split
  · exact reportsOnly_throw rfl
  · exact (fetch_reportsOnly _ c paired).bind fun l =>
      reportsOnly_ofExcept fun fault h => checkEntry_reportsOnly h

/-- The entry that decides is the first that would be reported like the certificate. -/
theorem revokedAt?_eq (l : RevocationList) (serial : Octets) : l.revokedAt? serial =
    (l.revoked.find? fun entry => Serial.hex entry.serial = Serial.hex serial).map
      (·.revokedAt) := by
  rw [RevocationList.revokedAt?]
  simp only [Serial.agree_eq_decide_hex]

end Crl

/-! ## What a report tells -/

namespace Inquiry

def Identifies (steps : Inquiry σ α) (serial : Octets) : Prop :=
  ∀ s fault t, Faults steps s fault t → ∀ text ∈ fault.serial?, ∀ other : Octets,
    Serial.hex other = text ↔ Octets.toNat other = Octets.toNat serial

theorem ReportsOnly.identifies {steps : Inquiry σ α} (h : steps.ReportsOnly serial) :
    steps.Identifies serial := by
  intro s fault t hfault text htext other
  rw [h s fault t hfault text htext, Serial.hex_eq_iff_toNat_eq]

end Inquiry

namespace Serial

/-- What is shown of serial numbers is all that is compared of them: the lower case numeral of the
number, without zeros in front. -/
theorem numeral_decides (env : Surroundings σ) :
    (∀ a b, [agree a b = true, Octets.toNat a = Octets.toNat b, hex a = hex b].TFAE) ∧
    (∀ serial, hex serial = String.ofList (Nat.toDigits 16 (Octets.toNat serial))) ∧
    (∀ configured c paired, (Ocsp.check env configured c paired).Identifies c.serial) ∧
    (∀ places c paired, (Crl.check env places c paired).Identifies c.serial) ∧
    (∀ (l : RevocationList) (serial : Octets), l.revokedAt? serial =
      (l.revoked.find? fun entry => hex entry.serial = hex serial).map (·.revokedAt)) ∧
    ∀ (id : Ocsp.CertId) c issuer, Ocsp.concerns id c issuer = .ok true ↔
      hex id.serial = hex c.serial ∧
        ∃ digest, (id.algorithm, digest) ∈ Ocsp.digestOids ∧ id.Names issuer digest := by
  refine ⟨fun a b => ?_, hex_eq_toDigits, fun configured c paired => ?_, fun places c paired => ?_,
    Crl.revokedAt?_eq, fun id c issuer => ?_⟩
  · tfae_have 1 ↔ 2 := agree_iff_toNat_eq
    tfae_have 3 ↔ 2 := hex_eq_iff_toNat_eq
    tfae_finish
  · exact (Ocsp.check_reportsOnly configured c paired).identifies
  · exact (Crl.check_reportsOnly places c paired).identifies
  · rw [Ocsp.concerns_eq_true_iff, Ocsp.Concerns, ← agree_iff, agree_eq_decide_hex,
      decide_eq_true_iff]

/-- Without octets, or with none but zeros, it is zero. -/
example : hex [] = "0" ∧ hex [0, 0] = "0" ∧ hex [0, 0x0a, 0xbc] = "abc" := by decide +kernel

end Serial
end MqttGateway
