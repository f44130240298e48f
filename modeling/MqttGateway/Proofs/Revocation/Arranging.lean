import Mathlib.Data.List.Perm.Basic
import MqttGateway.Proofs.Revocation.Representations
import MqttGateway.Proofs.Revocation.Responses
/-!
# How a response is arranged

The certificates and the entries of a response may come in any order, but only the first certificate
is tried as the signer, and an entry under an unknown digest ends the search if its serial number
fits. Main statement: the entry for a certificate is the answer exactly if the signer comes first
and no such entry comes before it. In any other arrangement the response is refused.
-/
namespace MqttGateway.Ocsp

open Serial (SameUpToZeros)

def Carries (octets : Octets) (b : BasicResponse) : Prop :=
  ∃ body, Der.read Response.reader octets = .ok ⟨.successful, some (basicType, body)⟩ ∧
    Der.read BasicResponse.reader body = .ok b

def Puzzles (id : CertId) (c : Certificate) : Prop :=
  SameUpToZeros id.serial c.serial ∧ ∀ digest, (id.algorithm, digest) ∉ digestOids

section Arrangements
variable (c issuer : Certificate) (singles : List SingleResponse)

inductive Awaited : Except VerifyFault Verdict → Prop
  | told {single} : single ∈ singles → Concerns single.id c issuer →
      Awaited (single.status.verdict.mapError .response)
  | silent : (∀ single ∈ singles, ¬ Concerns single.id c issuer) →
      Awaited (.error (.response (.silent (Serial.hex c.serial))))

def HasOneAnswer : Prop :=
  ∀ single ∈ singles, ∀ other ∈ singles,
    Concerns single.id c issuer → Concerns other.id c issuer → single = other

def IsPlain : Prop :=
  ∀ before single after, singles = before ++ single :: after → Puzzles single.id c →
    ∃ other ∈ before, Concerns other.id c issuer

end Arrangements

/-- The signature holds under the key of the issuer, or of a certificate in the response that the
issuer signed for this purpose, wherever it stands. -/
def BasicResponse.IsVouchedFor (b : BasicResponse) (issuer : Certificate) : Prop :=
  ∃ embedded signer, b.certificates.mapM Certificate.ofDer = .ok embedded ∧
    (signer = issuer ∨ signer ∈ embedded ∧ signer.verifySignedBy issuer = .ok () ∧
      signer.isOcspSigner = true) ∧
    ∃ algorithm, Der.read AlgorithmId.reader b.algorithm = .ok algorithm ∧
      signer.verifyData algorithm b.signature b.signed = .ok ()

structure BasicResponse.IsStraight (b : BasicResponse) (c issuer : Certificate) : Prop where
  signed : ∃ signer, b.IsSignedBy issuer signer
  plain : IsPlain c issuer b.singles

variable {c issuer : Certificate} {id : CertId} {head : SingleResponse}
  {singles others : List SingleResponse} {fault : VerifyFault} {b : BasicResponse}

/-! ## What is awaited -/

namespace Awaited

variable {answer other : Except VerifyFault Verdict}

theorem cons (h : Awaited c issuer singles answer) (hhead : ¬ Concerns head.id c issuer) :
    Awaited c issuer (head :: singles) answer := by
  cases h with
  | told hmem hconcerns => exact .told (List.mem_cons_of_mem head hmem) hconcerns
  | silent hnone => exact .silent (List.forall_mem_cons.mpr ⟨hhead, hnone⟩)

theorem of_perm (h : Awaited c issuer singles answer) (hperm : singles.Perm others) :
    Awaited c issuer others answer := by
  cases h with
  | told hmem hconcerns => exact .told (hperm.mem_iff.mp hmem) hconcerns
  | silent hnone => exact .silent fun single hmem => hnone single (hperm.mem_iff.mpr hmem)

theorem unique (hone : HasOneAnswer c issuer singles) (h : Awaited c issuer singles answer)
    (h' : Awaited c issuer singles other) : answer = other := by
  cases h with
  | told hmem hconcerns =>
    cases h' with
    | told hmem' hconcerns' => rw [hone _ hmem _ hmem' hconcerns hconcerns']
    | silent hnone => exact absurd hconcerns (hnone _ hmem)
  | silent hnone =>
    cases h' with
    | told hmem hconcerns => exact absurd hconcerns (hnone _ hmem)
    | silent => rfl

end Awaited

/-! ## Looking through the entries -/

theorem concerns_eq_error_iff {fault : OcspFault} :
    concerns id c issuer = .error fault ↔ Puzzles id c ∧ fault = .digest id.algorithm := by
  rw [concerns, Puzzles, ← Serial.agree_iff]
  simp only [← digest?_eq_some_iff]
  split
  case isFalse hserial => simp [hserial]
  case isTrue hserial =>
    split
    case h_1 digest hdigest => simp [hdigest]
    case h_2 hnone => simp [hserial, hnone, eq_comm]

theorem Puzzles.not_concerns (h : Puzzles id c) : ¬ Concerns id c issuer := by
  rintro ⟨-, digest, hdigest, -⟩
  exact h.2 digest hdigest

theorem Differs.not_puzzles (h : Differs id c issuer) : ¬ Puzzles id c := by
  rintro ⟨hserial, hunknown⟩
  obtain ⟨digest, hdigest⟩ := h.2 hserial
  exact hunknown digest hdigest

theorem isPlain_cons_of_concerns (h : Concerns head.id c issuer) :
    IsPlain c issuer (head :: singles) := by
  intro before single after hsplit hpuzzles
  cases before with
  | nil =>
    obtain ⟨rfl, -⟩ := List.cons.inj hsplit
    exact absurd h hpuzzles.not_concerns
  | cons first before =>
    obtain ⟨rfl, -⟩ := List.cons.inj hsplit
    exact ⟨head, List.mem_cons_self, h⟩

theorem isPlain_cons_iff_of_differs (h : Differs head.id c issuer) :
    IsPlain c issuer (head :: singles) ↔ IsPlain c issuer singles := by
  constructor
  · intro hplain before single after hsplit hpuzzles
    obtain ⟨other, hmem, hconcerns⟩ := hplain (head :: before) single after
      (congrArg (head :: ·) hsplit) hpuzzles
    obtain rfl | hmem := List.mem_cons.mp hmem
    · exact absurd hconcerns h.1
    · exact ⟨other, hmem, hconcerns⟩
  · intro hplain before single after hsplit hpuzzles
    cases before with
    | nil =>
      obtain ⟨rfl, -⟩ := List.cons.inj hsplit
      exact absurd hpuzzles h.not_puzzles
    | cons first before =>
      obtain ⟨rfl, hrest⟩ := List.cons.inj hsplit
      obtain ⟨other, hmem, hconcerns⟩ := hplain before single after hrest hpuzzles
      exact ⟨other, List.mem_cons_of_mem head hmem, hconcerns⟩

theorem not_isPlain_cons_of_puzzles (h : Puzzles head.id c) :
    ¬ IsPlain c issuer (head :: singles) := by
  intro hplain
  obtain ⟨other, hmem, -⟩ := hplain [] head singles rfl h
  cases hmem

/-- The search comes to what is awaited, or it ends at an entry that puzzles. -/
theorem find_awaited_or_puzzled (c issuer : Certificate) (singles : List SingleResponse) :
    (IsPlain c issuer singles ∧
      Awaited c issuer singles ((find c issuer singles).mapError .response)) ∨
    (¬ IsPlain c issuer singles ∧ ∃ type, find c issuer singles = .error (.digest type)) := by
  induction singles with
  | nil =>
    refine .inl ⟨?_, .silent (List.forall_mem_nil _)⟩
    intro before single after hsplit
    simp at hsplit
  | cons head singles ih =>
    rw [find]
    cases hhead : concerns head.id c issuer with
    | error fault =>
      obtain ⟨hpuzzles, rfl⟩ := concerns_eq_error_iff.mp hhead
      exact .inr ⟨not_isPlain_cons_of_puzzles hpuzzles, _, rfl⟩
    | ok found =>
      cases found with
      | true =>
        have hconcerns := concerns_eq_true_iff.mp hhead
        exact .inl ⟨isPlain_cons_of_concerns hconcerns, .told List.mem_cons_self hconcerns⟩
      | false =>
        have hdiffers := concerns_eq_false_iff.mp hhead
        rw [isPlain_cons_iff_of_differs hdiffers]
        refine ih.imp_left ?_
        rintro ⟨hplain, hawaited⟩
        exact ⟨hplain, hawaited.cons hdiffers.1⟩

/-! ## Where a refusal comes from -/

inductive IsOfEntries : VerifyFault → Prop
  | digest type : IsOfEntries (.response (.digest type))
  | date : IsOfEntries (.response .date)
  | silent serial : IsOfEntries (.response (.silent serial))

theorem Awaited.isOfEntries (h : Awaited c issuer singles (.error fault)) :
    IsOfEntries fault ∧ ∀ type, fault ≠ .response (.digest type) := by
  generalize hanswer : Except.error fault = answer at h
  cases h with
  | told hmem hconcerns =>
    obtain ⟨cause, hcause, rfl⟩ := mapError_eq_error_iff.mp hanswer.symm
    rw [CertStatus.verdict_eq_error hcause]
    exact ⟨.date, by simp⟩
  | silent hnone =>
    cases hanswer
    exact ⟨.silent _, by simp⟩

theorem not_isOfEntries_of_signer {certificates : List Certificate}
    (h : signer certificates issuer = .error fault) : ¬ IsOfEntries fault := by
  cases certificates with
  | nil => cases h
  | cons first rest =>
    rw [signer] at h
    split at h
    case isTrue => cases h
    case isFalse =>
    obtain hsigned | ⟨_, -, hfit⟩ := bind_eq_error_iff.mp h
    · obtain ⟨cause, -, rfl⟩ := mapError_eq_error_iff.mp hsigned
      rintro ⟨⟩
    · split at hfit
      case isTrue => cases hfit
      case isFalse =>
        cases hfit
        rintro ⟨⟩

namespace BasicResponse

theorem not_isOfEntries_of_authenticate (h : b.authenticate issuer = .error fault) :
    ¬ IsOfEntries fault := by
  obtain hembedded | ⟨embedded, -, h⟩ := bind_eq_error_iff.mp h
  · obtain ⟨_, _, _, -, -, hread⟩ := mapM_eq_error_iff.mp hembedded
    obtain ⟨cause, -, rfl⟩ := mapError_eq_error_iff.mp hread
    rintro ⟨⟩
  obtain hsigner | ⟨signer, -, h⟩ := bind_eq_error_iff.mp h
  · exact not_isOfEntries_of_signer hsigner
  obtain halgorithm | ⟨algorithm, -, h⟩ := bind_eq_error_iff.mp h
  · obtain ⟨cause, -, rfl⟩ := mapError_eq_error_iff.mp halgorithm
    rintro ⟨⟩
  obtain ⟨cause, -, rfl⟩ := mapError_eq_error_iff.mp h
  rintro ⟨⟩

theorem IsSignedBy.isVouchedFor {signer : Certificate} (h : b.IsSignedBy issuer signer) :
    b.IsVouchedFor issuer := by
  obtain ⟨⟨embedded, hembedded, hsigner⟩, hsignature⟩ := h
  refine ⟨embedded, signer, hembedded, ?_, hsignature⟩
  cases hsigner with
  | alone => exact .inl rfl
  | enclosed => exact .inl rfl
  | delegate _ hsigned hfit => exact .inr ⟨List.mem_cons_self, hsigned, hfit⟩

theorem IsVouchedFor.of_perm {certificates : List Octets} (h : b.IsVouchedFor issuer)
    (hperm : certificates.Perm b.certificates) :
    { b with certificates := certificates }.IsVouchedFor issuer := by
  obtain ⟨embedded, signer, hembedded, hsigner, hsignature⟩ := h
  obtain ⟨embedded', hembedded', hsame⟩ :=
    List.perm_comp_forall₂ hperm (mapM_eq_ok_iff.mp hembedded)
  refine ⟨embedded', signer, mapM_eq_ok_iff.mpr hembedded', ?_, hsignature⟩
  obtain rfl | ⟨hmem, hsigned, hfit⟩ := hsigner
  · exact .inl rfl
  · exact .inr ⟨hsame.mem_iff.mpr hmem, hsigned, hfit⟩

/-- The answer of an arrangement that is not straight is the fault of its signature, or of an entry
that puzzles. -/
theorem awaited_iff_isStraight (b : BasicResponse) (c issuer : Certificate) :
    Awaited c issuer b.singles (b.verdict c issuer) ↔ b.IsStraight c issuer := by
  rw [verdict_eq]
  cases hsigned : b.authenticate issuer with
  | error fault =>
    constructor
    · intro hawaited
      have hentries : IsOfEntries fault := (Awaited.isOfEntries hawaited).1
      exact absurd hentries (not_isOfEntries_of_authenticate hsigned)
    · rintro ⟨hsigner, -⟩
      rw [authenticate_eq_ok_iff.mpr hsigner] at hsigned
      cases hsigned
  | ok =>
    have hsigner := authenticate_eq_ok_iff.mp hsigned
    show Awaited c issuer b.singles ((find c issuer b.singles).mapError .response) ↔ _
    obtain ⟨hplain, hawaited⟩ | ⟨hpuzzled, type, hfind⟩ :=
      find_awaited_or_puzzled c issuer b.singles
    · exact ⟨fun _ => ⟨hsigner, hplain⟩, fun _ => hawaited⟩
    · constructor
      · intro hawaited
        rw [hfind] at hawaited
        exact absurd rfl ((Awaited.isOfEntries hawaited).2 type)
      · rintro ⟨-, hplain⟩
        exact absurd hplain hpuzzled

theorem exists_fault_of_not_isStraight (h : ¬ b.IsStraight c issuer) :
    ∃ fault, b.verdict c issuer = .error fault := by
  cases hverdict : b.verdict c issuer with
  | error fault => exact ⟨fault, rfl⟩
  | ok v =>
    obtain ⟨signer, single, hsigned, ⟨before, after, hsplit, -, hconcerns⟩, htells⟩ :=
      BasicResponse.verdict_eq_ok_iff.mp hverdict
    have hmem : single ∈ b.singles := by
      rw [hsplit]
      exact List.mem_append_right before List.mem_cons_self
    have hawaited : Awaited c issuer b.singles (single.status.verdict.mapError .response) :=
      .told hmem hconcerns
    rw [CertStatus.verdict_eq_ok_iff.mpr htells] at hawaited
    exact absurd ((b.awaited_iff_isStraight c issuer).mp (hverdict ▸ hawaited)) h

end BasicResponse

theorem Carries.verdict_eq {octets : Octets} (h : Carries octets b) (c issuer : Certificate) :
    verdict octets c issuer = b.verdict c issuer := by
  obtain ⟨body, hresponse, hbody⟩ := h
  have hread : (Der.read BasicResponse.reader body).mapError malformed = .ok b :=
    mapError_eq_ok_iff.mpr hbody
  rw [verdict, mapError_eq_ok_iff.mpr hresponse]
  simp only [bind, Except.bind, ne_eq, not_true_eq_false, if_false, hread]

/-- For responses with the same entries in any order, of which at most one is for the certificate:
what it says is answered exactly if the response is straight, and then it was signed. Another
arrangement that is straight too gives the same answer, and one that is not is refused. -/
theorem arranged_answers_iff {octets octets' : Octets} {b b' : BasicResponse}
    (h : Carries octets b) (h' : Carries octets' b') (hperm : b.singles.Perm b'.singles)
    (hone : HasOneAnswer c issuer b.singles) :
    (Awaited c issuer b.singles (verdict octets c issuer) ↔ b.IsStraight c issuer) ∧
    (b.IsStraight c issuer → b.IsVouchedFor issuer) ∧
    (b.IsStraight c issuer →
      (verdict octets' c issuer = verdict octets c issuer ↔ b'.IsStraight c issuer)) ∧
    (¬ b.IsStraight c issuer → ∃ fault, verdict octets c issuer = .error fault) := by
  rw [h.verdict_eq, h'.verdict_eq]
  refine ⟨b.awaited_iff_isStraight c issuer, ?_, ?_, BasicResponse.exists_fault_of_not_isStraight⟩
  · rintro ⟨⟨signer, hsigned⟩, -⟩
    exact hsigned.isVouchedFor
  · intro hstraight
    have hawaited := (b.awaited_iff_isStraight c issuer).mpr hstraight
    rw [← b'.awaited_iff_isStraight]
    constructor
    · intro hsame
      rw [hsame]
      exact hawaited.of_perm hperm
    · intro hawaited'
      exact (hawaited'.of_perm hperm.symm).unique hone hawaited

/-! ## Responses of a root -/

/-- The identifier of the authority's certificate, with digests of 20 octets. -/
def plantId : CertId where
  algorithm := Der.Oid.ofArcs [1, 3, 14, 3, 2, 26]
  nameHash := .ofNat 20 0x692a0ce064525d04549d7e805ccf98ebad39bd2f
  keyHash := .ofNat 20 0xaffe49d1201368c2546398af6bb03535ab80f5ef
  serial := [2]

def signedPart : Octets :=
  let time := Der.write 0x18 (Utf8.encode "20240601000000Z")
  let entry := Der.write 0x30 (plantId.encode ++ [0x80, 0] ++ time)
  Der.write 0x30 (Der.write 0xa1 Verifier.root.subject.raw ++ time ++ Der.write 0x30 entry)

def partSignature : Octets :=
  .ofNat 40 0x3e32c57f073c188f06faee42638f37758f55d3205105b53781aa35609e1cdfae027be6a4b3b351d7 ++
    .ofNat 40 0x450f47d667e13e082a35b896b32c6f2b0aeda8d545b227c6f9511dc4d059cf51e0c86ebd0066642a ++
    .ofNat 40 0x816288b08a3165c103457b705753f2facd0646c9a0bc2e8ee0aeeb4a23ca8b0963359a0c633826df ++
    .ofNat 8 0x1ee04866c12168d7

def withCertificates (certificates : List Octets) : BasicResponse where
  signed := signedPart
  singles := [⟨plantId, .good⟩]
  algorithm := Der.write 0x30
    (Der.write 0x06 (Der.Oid.ofArcs [1, 2, 840, 113549, 1, 1, 5]) ++ Der.write 0x05 [])
  signature := partSignature
  certificates := certificates

def rootFirst : BasicResponse := withCertificates [Verifier.rootDer, Tls.plantDer]
def rootLast : BasicResponse := withCertificates [Tls.plantDer, Verifier.rootDer]

def BasicResponse.encode (b : BasicResponse) : Octets :=
  Der.write 0x30 (b.signed ++ b.algorithm ++ Der.write 0x03 (0 :: b.signature) ++
    Der.write 0xa0 (Der.write 0x30 b.certificates.flatten))

def BasicResponse.send (b : BasicResponse) : Octets :=
  Der.write 0x30 (Der.write 0x0a [0] ++
    Der.write 0xa0 (Der.write 0x30 (Der.write 0x06 basicType ++ Der.write 0x04 b.encode)))

/-- What is computed of the two responses. -/
theorem verdicts_of_both : Carries rootFirst.send rootFirst ∧ Carries rootLast.send rootLast ∧
    rootFirst.verdict Tls.plant Verifier.root = .ok .good ∧
    rootLast.verdict Tls.plant Verifier.root =
      .error (.certificate (.signature "CN=plant" "CN=root" .unsupported)) := by
  refine ⟨⟨rootFirst.encode, ?_, ?_⟩, ⟨rootLast.encode, ?_, ?_⟩, ?_, ?_⟩
  all_goals decide +kernel

theorem hasOneAnswer_singleton (c issuer : Certificate) (single : SingleResponse) :
    HasOneAnswer c issuer [single] := by
  intro first hfirst other hother _ _
  rw [List.mem_singleton.mp hfirst, List.mem_singleton.mp hother]

/-- The authority is not entitled to sign, so its certificate must not come first. -/
theorem root_last_refused :
    (¬ rootLast.IsStraight Tls.plant Verifier.root) ∧
      ∃ fault, verdict rootLast.send Tls.plant Verifier.root = .error fault := by
  obtain ⟨hfirst, hlast, -, hverdict⟩ := verdicts_of_both
  have hone : HasOneAnswer Tls.plant Verifier.root rootLast.singles :=
    hasOneAnswer_singleton _ _ ⟨plantId, .good⟩
  obtain ⟨hanswers, -, -, hrefused⟩ := arranged_answers_iff hlast hfirst (.refl _) hone
  have hcrooked : ¬ rootLast.IsStraight Tls.plant Verifier.root := by
    intro hstraight
    have hawaited := hanswers.mpr hstraight
    rw [hlast.verdict_eq, hverdict] at hawaited
    cases hawaited.isOfEntries.1
  exact ⟨hcrooked, hrefused hcrooked⟩

/-- The two responses differ only in the order of the root's certificate and another. Both are
vouched for by the root, but only one is answered. -/
theorem order_of_certificates_matters :
    Carries rootFirst.send rootFirst ∧ Carries rootLast.send rootLast ∧
    rootLast = { rootFirst with certificates := rootFirst.certificates.reverse } ∧
    HasOneAnswer Tls.plant Verifier.root rootFirst.singles ∧
    rootFirst.IsVouchedFor Verifier.root ∧ rootLast.IsVouchedFor Verifier.root ∧
    verdict rootFirst.send Tls.plant Verifier.root = .ok .good ∧
    verdict rootLast.send Tls.plant Verifier.root =
      .error (.certificate (.signature "CN=plant" "CN=root" .unsupported)) := by
  obtain ⟨hfirst, hlast, hgood, hrefused⟩ := verdicts_of_both
  have hone : HasOneAnswer Tls.plant Verifier.root rootFirst.singles :=
    hasOneAnswer_singleton _ _ ⟨plantId, .good⟩
  have hvouched : rootFirst.IsVouchedFor Verifier.root := by
    obtain ⟨signer, single, hsigned, -⟩ := BasicResponse.verdict_eq_ok_iff.mp hgood
    exact hsigned.isVouchedFor
  have hreversed : rootLast =
      { rootFirst with certificates := rootFirst.certificates.reverse } := by
    simp [rootLast, rootFirst, withCertificates]
  have hstill : rootLast.IsVouchedFor Verifier.root := by
    rw [hreversed]
    exact hvouched.of_perm (List.reverse_perm _)
  exact ⟨hfirst, hlast, hreversed, hone, hvouched, hstill, (hfirst.verdict_eq _ _).trans hgood,
    (hlast.verdict_eq _ _).trans hrefused⟩

end MqttGateway.Ocsp
