import MqttGateway.Proofs.Certificate.Serials
import MqttGateway.Proofs.Der.Elements
import MqttGateway.Proofs.Steps
import MqttGateway.Revocation.Ocsp.Check
/-!
# What responders are believed

Main statement: whatever octets come as a response, a status is taken from them only if the part
that tells it was signed, as it stands there, by the issuer or by a certificate that the issuer
signed for this purpose, and it is what the first entry for the certificate says. A certificate
passes only if this status is good.
-/
namespace MqttGateway.Ocsp

open Serial (SameUpToZeros)
open Der (IsElement BeginsSequence read_record_iff reads_within_iff read_eq_ok_iff
  encoded_eq_ok_iff)

variable {c issuer signer : Certificate} {id : CertId} {single : SingleResponse}

/-! ## Entries -/

theorem digest?_eq_some_iff {oid : Der.Oid} {digest : DigestAlgorithm} :
    digest? oid = some digest ↔ (oid, digest) ∈ digestOids := by
  constructor
  · intro h
    obtain ⟨entry, hfound, rfl⟩ := Option.map_eq_some_iff.mp h
    have hoid : entry.1 = oid := by simpa using List.find?_some hfound
    rw [← hoid]
    exact List.mem_of_find?_eq_some hfound
  · intro h
    simp only [digestOids, List.mem_cons, List.not_mem_nil, or_false, Prod.mk.injEq] at h
    rcases h with ⟨rfl, rfl⟩ | ⟨rfl, rfl⟩ | ⟨rfl, rfl⟩ | ⟨rfl, rfl⟩ <;> rfl

def CertId.Names (id : CertId) (issuer : Certificate) (digest : DigestAlgorithm) : Prop :=
  digest.hash issuer.subject.raw = id.nameHash ∧ digest.hash issuer.key.bits = id.keyHash

def Concerns (id : CertId) (c issuer : Certificate) : Prop :=
  SameUpToZeros id.serial c.serial ∧
    ∃ digest, (id.algorithm, digest) ∈ digestOids ∧ id.Names issuer digest

def Differs (id : CertId) (c issuer : Certificate) : Prop :=
  ¬ Concerns id c issuer ∧
    (SameUpToZeros id.serial c.serial → ∃ digest, (id.algorithm, digest) ∈ digestOids)

theorem CertId.namesIssuer_iff {digest : DigestAlgorithm} :
    id.namesIssuer digest issuer = true ↔ id.Names issuer digest := by
  rw [namesIssuer, Bool.and_eq_true, beq_iff_eq, beq_iff_eq]
  rfl

theorem concerns_eq_true_iff : concerns id c issuer = .ok true ↔ Concerns id c issuer := by
  rw [concerns, Concerns, ← Serial.agree_iff]
  simp only [← digest?_eq_some_iff, ← CertId.namesIssuer_iff]
  split
  case isFalse hserial => simp [hserial]
  case isTrue hserial =>
    split
    case h_1 digest hdigest => simp [hserial, hdigest]
    case h_2 hnone => simp [hnone]

theorem concerns_eq_false_iff : concerns id c issuer = .ok false ↔ Differs id c issuer := by
  rw [concerns, Differs, Concerns, ← Serial.agree_iff]
  simp only [← digest?_eq_some_iff, ← CertId.namesIssuer_iff]
  split
  case isFalse hserial => simp [hserial]
  case isTrue hserial =>
    split
    case h_1 digest hdigest => simp [hserial, hdigest]
    case h_2 hnone => simp [hserial, hnone]

inductive CertStatus.Tells : CertStatus → Verdict → Prop
  | good : Tells .good .good
  | unknown : Tells .unknown .unknown
  | revoked {time instant} : time.instant? = some instant →
      Tells (.revoked time) (.revoked instant)

theorem CertStatus.verdict_eq_ok_iff {status : CertStatus} {v : Verdict} :
    status.verdict = .ok v ↔ status.Tells v := by
  constructor
  · intro h
    cases status with
    | good =>
      cases h
      exact .good
    | unknown =>
      cases h
      exact .unknown
    | revoked time =>
      rw [CertStatus.verdict] at h
      split at h
      case h_1 instant hinstant =>
        cases h
        exact .revoked hinstant
      case h_2 => cases h
  · intro h
    cases h with
    | good => rfl
    | unknown => rfl
    | revoked hinstant => rw [CertStatus.verdict, hinstant]

theorem CertStatus.verdict_eq_error {status : CertStatus} {fault : OcspFault}
    (h : status.verdict = .error fault) : fault = .date := by
  cases status with
  | good => cases h
  | unknown => cases h
  | revoked time =>
    rw [CertStatus.verdict] at h
    split at h
    case h_1 => cases h
    case h_2 =>
      cases h
      rfl

def IsFirstFor (single : SingleResponse) (c issuer : Certificate) (singles : List SingleResponse) :
    Prop :=
  ∃ before after, singles = before ++ single :: after ∧
    (∀ other ∈ before, Differs other.id c issuer) ∧ Concerns single.id c issuer

theorem find_eq_ok_iff {singles : List SingleResponse} {v : Verdict} :
    find c issuer singles = .ok v ↔
      ∃ single, IsFirstFor single c issuer singles ∧ single.status.Tells v := by
  induction singles with
  | nil => exact ⟨nofun, fun ⟨_, ⟨_, _, h, _⟩, _⟩ => absurd h (by simp)⟩
  | cons head singles ih =>
    rw [find, bind_eq_ok_iff]
    simp only [← CertStatus.verdict_eq_ok_iff] at ih ⊢
    constructor
    · rintro ⟨found, hfound, h⟩
      cases found with
      | true =>
        refine ⟨head, ⟨[], singles, rfl, nofun, concerns_eq_true_iff.mp hfound⟩, h⟩
      | false =>
        obtain ⟨single, ⟨before, after, rfl, hbefore, hconcerns⟩, hstatus⟩ := ih.mp h
        have hhead := concerns_eq_false_iff.mp hfound
        exact ⟨single, ⟨head :: before, after, rfl,
          List.forall_mem_cons.mpr ⟨hhead, hbefore⟩, hconcerns⟩, hstatus⟩
    · rintro ⟨single, ⟨before, after, heq, hbefore, hconcerns⟩, hstatus⟩
      cases before with
      | nil =>
        obtain ⟨rfl, -⟩ := List.cons.inj heq
        exact ⟨true, concerns_eq_true_iff.mpr hconcerns, hstatus⟩
      | cons other before =>
        obtain ⟨rfl, rfl⟩ := List.cons.inj heq
        obtain ⟨hhead, hbefore⟩ := List.forall_mem_cons.mp hbefore
        exact ⟨false, concerns_eq_false_iff.mpr hhead,
          ih.mpr ⟨single, ⟨before, after, rfl, hbefore, hconcerns⟩, hstatus⟩⟩

/-! ## Signers -/

inductive MaySign (issuer : Certificate) : List Certificate → Certificate → Prop
  | alone : MaySign issuer [] issuer
  | enclosed {first rest} : first.der = issuer.der → MaySign issuer (first :: rest) issuer
  | delegate {first rest} : first.der ≠ issuer.der → first.verifySignedBy issuer = .ok () →
      first.isOcspSigner = true → MaySign issuer (first :: rest) first

theorem signer_eq_ok_iff {certificates : List Certificate} :
    Ocsp.signer certificates issuer = .ok signer ↔ MaySign issuer certificates signer := by
  cases certificates with
  | nil =>
    constructor
    · rintro ⟨⟩
      exact .alone
    · rintro ⟨⟩
      rfl
  | cons first rest =>
    rw [Ocsp.signer]
    split
    case isTrue hsame =>
      constructor
      · rintro ⟨⟩
        exact .enclosed hsame
      · intro h
        cases h with
        | enclosed => rfl
        | delegate hother => exact absurd hsame hother
    case isFalse hother =>
      rw [check_bind_eq_ok_iff, mapError_eq_ok_iff]
      split
      case isTrue hfit =>
        rw [pure_eq_ok_iff]
        constructor
        · rintro ⟨hsigned, rfl⟩
          exact .delegate hother hsigned hfit
        · intro h
          cases h with
          | enclosed hsame => exact absurd hsame hother
          | delegate _ hsigned _ => exact ⟨hsigned, rfl⟩
      case isFalse hunfit =>
        constructor
        · rintro ⟨_, ⟨⟩⟩
        · intro h
          cases h with
          | enclosed hsame => exact absurd hsame hother
          | delegate _ _ hfit => exact absurd hfit hunfit

/-! ## Responses -/

/-- The octets are those of a sequence that begins with the signed part of a basic response. -/
theorem BasicResponse.signed_of_read {body : Octets} {basic : BasicResponse}
    (h : Der.read BasicResponse.reader body = .ok basic) :
    IsElement basic.signed ∧ Der.read singlesReader basic.signed = .ok basic.singles ∧
      ∃ content rest, BeginsSequence body content ∧ content = basic.signed ++ rest := by
  rw [BasicResponse.reader, read_record_iff] at h
  obtain ⟨content, hbody, h⟩ := h
  obtain ⟨rest, h⟩ := read_eq_ok_iff.mp h
  obtain ⟨signed, rest₁, hsigned, h⟩ := reads_bind_iff.mp h
  obtain ⟨singles, rest₂, hsingles, h⟩ := reads_bind_iff.mp h
  obtain ⟨algorithm, rest₃, -, h⟩ := reads_bind_iff.mp h
  obtain ⟨signature, rest₄, -, h⟩ := reads_bind_iff.mp h
  obtain ⟨certificates, rest₅, -, h⟩ := reads_bind_iff.mp h
  obtain ⟨rfl, -⟩ := reads_pure_iff.mp h
  obtain ⟨helement, hcontent⟩ := encoded_eq_ok_iff.mp hsigned
  exact ⟨helement, (reads_within_iff.mp hsingles).1, content, rest₁, hbody, hcontent⟩

structure BasicResponse.IsSignedBy (basic : BasicResponse) (issuer signer : Certificate) :
    Prop where
  entitled : ∃ embedded, basic.certificates.mapM Certificate.ofDer = .ok embedded ∧
    MaySign issuer embedded signer
  holds : ∃ algorithm, Der.read AlgorithmId.reader basic.algorithm = .ok algorithm ∧
    signer.verifyData algorithm basic.signature basic.signed = .ok ()

def BasicResponse.authenticate (basic : BasicResponse) (issuer : Certificate) :
    Except VerifyFault Unit := do
  let certificates ← basic.certificates.mapM fun der =>
    (Certificate.ofDer der).mapError fun fault => .certificate (.encoding fault)
  let signer ← Ocsp.signer certificates issuer
  let algorithm ← (Der.read AlgorithmId.reader basic.algorithm).mapError
    fun fault => .response (.algorithm fault)
  (signer.verifyData algorithm basic.signature basic.signed).mapError
    fun fault => .response (.signature fault)

theorem BasicResponse.authenticate_eq_ok_iff {basic : BasicResponse} :
    basic.authenticate issuer = .ok () ↔ ∃ signer, basic.IsSignedBy issuer signer := by
  simp only [authenticate, bind_eq_ok_iff, mapM_mapError_eq_ok_iff, signer_eq_ok_iff,
    mapError_eq_ok_iff]
  constructor
  · rintro ⟨embedded, hembedded, signer, hsigner, algorithm, halgorithm, hsignature⟩
    exact ⟨signer, ⟨embedded, hembedded, hsigner⟩, algorithm, halgorithm, hsignature⟩
  · rintro ⟨signer, ⟨embedded, hembedded, hsigner⟩, algorithm, halgorithm, hsignature⟩
    exact ⟨embedded, hembedded, signer, hsigner, algorithm, halgorithm, hsignature⟩

theorem BasicResponse.verdict_eq (basic : BasicResponse) (c issuer : Certificate) :
    basic.verdict c issuer =
      basic.authenticate issuer >>= fun _ => (find c issuer basic.singles).mapError .response := by
  simp only [verdict, authenticate, bind_assoc]

theorem BasicResponse.verdict_eq_ok_iff {basic : BasicResponse} {v : Verdict} :
    basic.verdict c issuer = .ok v ↔ ∃ signer single, basic.IsSignedBy issuer signer ∧
      IsFirstFor single c issuer basic.singles ∧ single.status.Tells v := by
  rw [verdict_eq, check_bind_eq_ok_iff, authenticate_eq_ok_iff, mapError_eq_ok_iff, find_eq_ok_iff]
  constructor
  · rintro ⟨⟨signer, hsigned⟩, single, hsingle⟩
    exact ⟨signer, single, hsigned, hsingle⟩
  · rintro ⟨signer, single, hsigned, hsingle⟩
    exact ⟨⟨signer, hsigned⟩, single, hsingle⟩

/-- What there has to be in the octets of a response for it to tell of a certificate. -/
structure Evidence (octets : Octets) (c issuer : Certificate) (basic : BasicResponse)
    (signer : Certificate) (single : SingleResponse) : Prop where
  body : ∃ body, Der.read Response.reader octets = .ok ⟨.successful, some (basicType, body)⟩ ∧
    Der.read BasicResponse.reader body = .ok basic ∧
    ∃ content rest, BeginsSequence body content ∧ content = basic.signed ++ rest
  element : IsElement basic.signed
  signature : basic.IsSignedBy issuer signer
  singles : Der.read singlesReader basic.signed = .ok basic.singles
  first : IsFirstFor single c issuer basic.singles

theorem verdict_eq_ok_iff {octets : Octets} {v : Verdict} : verdict octets c issuer = .ok v ↔
    (∃ response, Der.read Response.reader octets = .ok response ∧
      response.status ≠ .successful ∧ v = .failed response.status) ∨
    ∃ basic signer single, Evidence octets c issuer basic signer single ∧
      single.status.Tells v := by
  rw [verdict, bind_eq_ok_iff]
  simp only [mapError_eq_ok_iff]
  constructor
  · rintro ⟨response, hresponse, h⟩
    split at h
    case isTrue hfailed => exact .inl ⟨response, hresponse, hfailed, (pure_eq_ok_iff.mp h).symm⟩
    case isFalse hsuccessful =>
    obtain ⟨status, body⟩ := response
    obtain rfl : status = .successful := not_not.mp hsuccessful
    split at h
    case h_1 => cases h
    case h_2 type body hbody =>
    obtain rfl : _ = some (type, body) := hbody
    split at h
    case isTrue => cases h
    case isFalse htype =>
    obtain rfl : type = basicType := not_not.mp htype
    obtain ⟨basic, hbasic, hverdict⟩ := bind_eq_ok_iff.mp h
    obtain ⟨signer, single, hsigned, hfirst, hstatus⟩ :=
      BasicResponse.verdict_eq_ok_iff.mp hverdict
    have hread := mapError_eq_ok_iff.mp hbasic
    obtain ⟨helement, hsingles, hpart⟩ := BasicResponse.signed_of_read hread
    have hevidence : Evidence octets c issuer basic signer single :=
      ⟨⟨body, hresponse, hread, hpart⟩, helement, hsigned, hsingles, hfirst⟩
    exact .inr ⟨basic, signer, single, hevidence, hstatus⟩
  · rintro (⟨response, hresponse, hfailed, rfl⟩ | ⟨basic, signer, single, hevidence, hstatus⟩)
    · exact ⟨response, hresponse, by rw [if_pos hfailed]; rfl⟩
    · obtain ⟨body, hresponse, hread, -⟩ := hevidence.body
      refine ⟨_, hresponse, ?_⟩
      have hverdict : basic.verdict c issuer = .ok v := BasicResponse.verdict_eq_ok_iff.mpr
        ⟨signer, single, hevidence.signature, hevidence.first, hstatus⟩
      simp only [ne_eq, not_true_eq_false, if_false]
      exact bind_eq_ok_iff.mpr ⟨basic, mapError_eq_ok_iff.mpr hread, hverdict⟩

theorem Verdict.accept_eq_ok_iff {v : Verdict} : v.accept c = .ok () ↔ v = .good := by
  cases v with
  | good => exact ⟨fun _ => rfl, fun _ => rfl⟩
  | revoked time => exact ⟨nofun, nofun⟩
  | unknown => exact ⟨nofun, nofun⟩
  | failed status => exact ⟨nofun, nofun⟩

theorem yields_status_iff {σ : Type} {env : Surroundings σ} {configured : Option String}
    {v : Verdict} {s t : σ} : Yields (status env configured c issuer) s v t ↔
      ∃ url answer, responder? configured c = some url ∧
        Yields (Inquiry.post env url (request (.ofCertificate c issuer))) s answer t ∧
        verdict answer c issuer = .ok v := by
  rw [status]
  split
  case h_1 hnone =>
    constructor
    · exact fun h => absurd h not_yields_throw
    · rintro ⟨url, _, hurl, _⟩
      cases hnone.symm.trans hurl
  case h_2 url hurl =>
    simp only [yields_bind_iff, yields_ofExcept_iff]
    constructor
    · rintro ⟨answer, u, hanswer, hverdict, rfl⟩
      exact ⟨url, answer, hurl, hanswer, hverdict⟩
    · rintro ⟨url', answer, hurl', hanswer, hverdict⟩
      obtain rfl : url = url' := Option.some.inj (hurl.symm.trans hurl')
      exact ⟨answer, t, hanswer, hverdict, rfl⟩

/-- Unless the responder says that it failed, a verdict is what the signed part of the response says
in its first entry for the certificate. A certificate passes only if that is a good status. -/
theorem believes_only_evidence {σ : Type} (env : Surroundings σ) :
    (∀ octets c issuer v, verdict octets c issuer = .ok v ↔
      (∃ response, Der.read Response.reader octets = .ok response ∧
        response.status ≠ .successful ∧ v = .failed response.status) ∨
      ∃ basic signer single, Evidence octets c issuer basic signer single ∧
        single.status.Tells v) ∧
    ∀ configured c paired s t, Yields (check env configured c paired) s () t ↔
      ∃ issuer u url answer, Yields (Inquiry.resolveIssuer env c paired) s issuer u ∧
        responder? configured c = some url ∧
        Yields (Inquiry.post env url (request (.ofCertificate c issuer))) u answer t ∧
        ∃ basic signer single, Evidence answer c issuer basic signer single ∧
          single.status = .good := by
  refine ⟨fun octets c issuer v => verdict_eq_ok_iff, fun configured c paired s t => ?_⟩
  have hgood : ∀ {answer issuer}, verdict answer c issuer = .ok .good ↔
      ∃ basic signer single, Evidence answer c issuer basic signer single ∧
        single.status = .good := by
    intro answer issuer
    rw [verdict_eq_ok_iff]
    constructor
    · rintro (⟨_, _, _, ⟨⟩⟩ | ⟨basic, signer, single, hevidence, htells⟩)
      refine ⟨basic, signer, single, hevidence, ?_⟩
      generalize single.status = status at htells ⊢
      cases htells
      rfl
    · rintro ⟨basic, signer, single, hevidence, hstatus⟩
      exact .inr ⟨basic, signer, single, hevidence, hstatus ▸ .good⟩
  simp only [check, yields_bind_iff, yields_ofExcept_iff, yields_status_iff]
  constructor
  · rintro ⟨issuer, u, hissuer, v, w, ⟨url, answer, hurl, hanswer, hverdict⟩, haccept, rfl⟩
    obtain rfl := Verdict.accept_eq_ok_iff.mp haccept
    exact ⟨issuer, u, url, answer, hissuer, hurl, hanswer, hgood.mp hverdict⟩
  · rintro ⟨issuer, u, url, answer, hissuer, hurl, hanswer, hevidence⟩
    have hverdict := hgood.mpr hevidence
    exact ⟨issuer, u, hissuer, .good, t, ⟨url, answer, hurl, hanswer, hverdict⟩, rfl, rfl⟩

end MqttGateway.Ocsp
