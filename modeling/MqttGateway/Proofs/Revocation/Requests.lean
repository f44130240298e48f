import MqttGateway.Proofs.Der.Writing
import MqttGateway.Proofs.Revocation.Responses
import MqttGateway.Proofs.Tls.Lookalikes
/-!
# What responders are asked

Main statement: a request asks about one certificate, by its serial number as it stands and by the
digests of the name and of the key of the issuer, and nothing else is in it. An entry that gives
this back is taken to be about the certificates of the issuer with the same serial number, and about
no others.
-/
namespace MqttGateway.Ocsp

open Der

variable {id : CertId}

/-! ## What a request holds -/

def CertId.strictReader : Reader CertId := exactly do
  let algorithm ← exactly do
    let algorithm ← leaf Tag.objectId
    let parameters ← leaf Tag.null
    require parameters.isEmpty
    return algorithm
  let nameHash ← leaf Tag.octetString
  let keyHash ← leaf Tag.octetString
  let serial ← leaf Tag.integer
  return { algorithm, nameHash, keyHash, serial }

/-- All that a request asks about: it holds a body, which holds a list, of which each item holds an
identifier, and there is nothing besides. -/
def asked : Reader (List CertId) :=
  exactly (exactly (exactly (all (exactly CertId.strictReader))))

namespace CertId

/-- The parts, with all that is written around them in a request, do not exceed the lengths that can
be written. -/
def Fits (id : CertId) : Prop :=
  id.algorithm.length + id.nameHash.length + id.keyHash.length + id.serial.length + 100 <
    Nat.pow 2 64

def writeAlgorithm (id : CertId) : Octets :=
  write 0x06 id.algorithm ++ write 0x05 []

def writeParts (id : CertId) : Octets :=
  write 0x30 id.writeAlgorithm ++ write 0x04 id.nameHash ++ write 0x04 id.keyHash ++
    write 0x02 id.serial

theorem encode_eq (id : CertId) : id.encode = write 0x30 id.writeParts :=
  rfl

/-- The parts as they are read, one after the other. -/
theorem writeParts_eq (id : CertId) : id.writeParts = write 0x30 id.writeAlgorithm ++
    (write 0x04 id.nameHash ++ (write 0x04 id.keyHash ++ (write 0x02 id.serial ++ []))) := by
  simp only [writeParts, List.append_assoc, List.append_nil]

end CertId

structure CertId.Sizes (id : CertId) : Prop where
  algorithm : id.algorithm.length < Nat.pow 2 64
  nameHash : id.nameHash.length < Nat.pow 2 64
  keyHash : id.keyHash.length < Nat.pow 2 64
  serial : id.serial.length < Nat.pow 2 64
  algorithmParts : id.writeAlgorithm.length < Nat.pow 2 64
  parts : id.writeParts.length < Nat.pow 2 64
  identifier : id.encode.length + 30 < Nat.pow 2 64

theorem CertId.Fits.sizes (h : id.Fits) : id.Sizes := by
  have hsum : _ < Nat.pow 2 64 := h
  have hnone : ([] : Octets).length < Nat.pow 2 64 := by decide
  have halgorithm := length_write_le 0x06 id.algorithm (by omega)
  have hparameters := length_write_le 0x05 [] hnone
  have hparts : id.writeAlgorithm.length ≤ id.algorithm.length + 20 := by
    rw [CertId.writeAlgorithm, List.length_append]
    rw [List.length_nil] at hparameters
    omega
  have hwhole := length_write_le 0x30 id.writeAlgorithm (by omega)
  have hname := length_write_le 0x04 id.nameHash (by omega)
  have hkey := length_write_le 0x04 id.keyHash (by omega)
  have hserial := length_write_le 0x02 id.serial (by omega)
  have hall : id.writeParts.length ≤ id.algorithm.length + id.nameHash.length +
      id.keyHash.length + id.serial.length + 60 := by
    rw [CertId.writeParts, List.length_append, List.length_append, List.length_append]
    omega
  have hencode := length_write_le 0x30 id.writeParts (by omega)
  rw [← CertId.encode_eq] at hencode
  constructor <;> omega

theorem strictReader_encode (h : id.Fits) (rest : Octets) :
    CertId.strictReader (id.encode ++ rest) = .ok (id, rest) := by
  have hsizes := h.sizes
  refine exactly_write ?_ hsizes.parts rest
  rw [CertId.writeParts_eq]
  refine reads_bind_iff.mpr ⟨id.algorithm, _, exactly_write ?_ hsizes.algorithmParts _, ?_⟩
  · rw [← List.append_nil id.writeAlgorithm, CertId.writeAlgorithm, List.append_assoc]
    refine reads_bind_iff.mpr ⟨_, _, leaf_write (by decide) hsizes.algorithm _, ?_⟩
    exact reads_bind_iff.mpr ⟨[], _, leaf_write (by decide) (by decide) _, rfl⟩
  refine reads_bind_iff.mpr ⟨_, _, leaf_write (by decide) hsizes.nameHash _, ?_⟩
  refine reads_bind_iff.mpr ⟨_, _, leaf_write (by decide) hsizes.keyHash _, ?_⟩
  exact reads_bind_iff.mpr ⟨_, _, leaf_write (by decide) hsizes.serial _, rfl⟩

theorem reader_encode (h : id.Fits) (rest : Octets) :
    CertId.reader (id.encode ++ rest) = .ok (id, rest) := by
  have hsizes := h.sizes
  refine record_write (read_eq_ok_iff.mpr ⟨[], ?_⟩) hsizes.parts rest
  rw [CertId.writeParts_eq]
  have halgorithm : read oid id.writeAlgorithm = .ok id.algorithm :=
    read_eq_ok_iff.mpr ⟨_, oid_write (by decide) hsizes.algorithm _⟩
  refine reads_bind_iff.mpr ⟨_, _, record_write halgorithm hsizes.algorithmParts _, ?_⟩
  refine reads_bind_iff.mpr ⟨_, _, universal_write (by decide) hsizes.nameHash _, ?_⟩
  refine reads_bind_iff.mpr ⟨_, _, universal_write (by decide) hsizes.keyHash _, ?_⟩
  exact reads_bind_iff.mpr ⟨_, _, universal_write (by decide) hsizes.serial _, rfl⟩

/-- A request asks about the one identifier that it is written for. -/
theorem asked_request (h : id.Fits) : asked (request id) = .ok ([id], []) := by
  have hidentifier := h.sizes.identifier
  have hitem := length_write_le 0x30 id.encode (by omega)
  have hlist := length_write_le 0x30 (write 0x30 id.encode) (by omega)
  have hbody := length_write_le 0x30 (write 0x30 (write 0x30 id.encode)) (by omega)
  have hread : CertId.strictReader id.encode = .ok (id, []) := by
    rw [← strictReader_encode h [], List.append_nil]
  have hsome : write 0x30 id.encode ≠ [] := by
    rw [write_eq]
    nofun
  have hall := all_singleton (exactly_write_whole hread (by omega)) hsome ⟨.short, rfl⟩
  exact exactly_write_whole (exactly_write_whole (exactly_write_whole hall (by omega)) (by omega))
    (by omega)

/-! ## What is taken as an answer -/

/-- A single response that repeats an identifier is read as one with this identifier. -/
theorem read_single_iff {bs more : Octets} {single : SingleResponse} (h : id.Fits)
    (hbegins : BeginsSequence bs (id.encode ++ more)) :
    read SingleResponse.reader bs = .ok single ↔
      single.id = id ∧ read CertStatus.reader more = .ok single.status := by
  have hid (found : CertId) (rest : Octets) :
      CertId.reader (id.encode ++ more) = .ok (found, rest) ↔ id = found ∧ more = rest := by
    rw [reader_encode h, Except.ok.injEq, Prod.mk.injEq]
  rw [SingleResponse.reader, hbegins.read_record_iff]
  simp only [read_eq_ok_iff, reads_bind_iff, reads_pure_iff, hid]
  constructor
  · rintro ⟨_, _, _, ⟨rfl, rfl⟩, status, rest, hstatus, rfl, rfl⟩
    exact ⟨rfl, rest, hstatus⟩
  · rintro ⟨hsame, rest, hstatus⟩
    exact ⟨rest, id, more, ⟨rfl, rfl⟩, single.status, rest, hstatus, hsame ▸ rfl, rfl⟩

/-- An identifier that is sent concerns the certificates of the issuer with the number in it. -/
theorem concerns_ofCertificate (c other issuer : Certificate) :
    concerns (.ofCertificate c issuer) other issuer =
      .ok (decide (Octets.toNat other.serial = Octets.toNat c.serial)) := by
  have hsame : Serial.SameUpToZeros c.serial other.serial ↔
      Octets.toNat other.serial = Octets.toNat c.serial := by
    rw [← Serial.agree_iff, Serial.agree_iff_toNat_eq, eq_comm]
  by_cases hserial : Octets.toNat other.serial = Octets.toNat c.serial
  · have hknown : (sha256Oid, DigestAlgorithm.sha256) ∈ digestOids :=
      List.mem_cons_of_mem _ List.mem_cons_self
    rw [decide_eq_true hserial]
    exact concerns_eq_true_iff.mpr ⟨hsame.mpr hserial, .sha256, hknown, rfl, rfl⟩
  · rw [decide_eq_false hserial]
    exact concerns_eq_false_iff.mpr ⟨fun h => hserial (hsame.mp h.1),
      fun h => absurd (hsame.mp h) hserial⟩

theorem length_sha256 (octets : Octets) : (DigestAlgorithm.sha256.hash octets).length = 32 := by
  rw [DigestAlgorithm.hash, Digest.Sha256.hash]
  simp [Octets.length_ofNat]

theorem length_sha256Oid : sha256Oid.length = 9 := by
  decide +kernel

/-- Who is asked about can be written, as there are less than `2 ^ 63` octets in any memory. -/
theorem fits_ofCertificate {c : Certificate} (issuer : Certificate)
    (hserial : c.serial.length < Nat.pow 2 63) : (CertId.ofCertificate c issuer).Fits := by
  have hdouble : Nat.pow 2 64 = 2 * Nat.pow 2 63 := rfl
  have hroom : 1000 < Nat.pow 2 63 := by decide
  rw [CertId.Fits]
  simp only [CertId.ofCertificate, length_sha256, length_sha256Oid]
  omega

/-- A request holds one identifier and nothing else: the SHA-256 digests of the name and of the key
of the issuer, and the serial number as it stands in the certificate. A single response that begins
with what was sent is one with this identifier, and the identifier concerns just the certificates of
the issuer with the same number. -/
theorem request_identifies (c issuer : Certificate) (hserial : c.serial.length < Nat.pow 2 63) :
    asked (request (.ofCertificate c issuer)) =
      .ok ([{ algorithm := sha256Oid
              nameHash := DigestAlgorithm.sha256.hash issuer.subject.raw
              keyHash := DigestAlgorithm.sha256.hash issuer.key.bits
              serial := c.serial }], []) ∧
    (∀ bs more single, BeginsSequence bs ((CertId.ofCertificate c issuer).encode ++ more) →
      (read SingleResponse.reader bs = .ok single ↔
        single.id = .ofCertificate c issuer ∧ read CertStatus.reader more = .ok single.status)) ∧
    concerns (.ofCertificate c issuer) c issuer = .ok true ∧
    ∀ other : Certificate, Octets.toNat other.serial ≠ Octets.toNat c.serial →
      concerns (.ofCertificate c issuer) other issuer = .ok false := by
  have hfits := fits_ofCertificate issuer hserial
  refine ⟨asked_request hfits, fun _ _ _ => read_single_iff hfits, ?_, fun other hother => ?_⟩
  · rw [concerns_ofCertificate, decide_eq_true rfl]
  · rw [concerns_ofCertificate, decide_eq_false hother]

/-- A number of 300 octets, for which the lengths around it take three. A good status is read behind
the identifier that is sent, which is not that of the certificate with another number. -/
theorem long_number_identifies :
    let c : Certificate := { Tls.pump with serial := List.replicate 300 7 }
    let id := CertId.ofCertificate c Tls.plant
    (asked (request id)).map (fun found => (found.1.map (·.serial), found.2)) =
      .ok ([List.replicate 300 7], []) ∧
    read SingleResponse.reader (write 0x30 (id.encode ++ [0x80, 0x00])) = .ok ⟨id, .good⟩ ∧
    concerns id c Tls.plant = .ok true ∧ concerns id Tls.pump Tls.plant = .ok false := by
  intro c id
  have hserial : c.serial.length < Nat.pow 2 63 := by decide +kernel
  obtain ⟨hasked, hread, hsame, hother⟩ := request_identifies c Tls.plant hserial
  have hcontent : (id.encode ++ [0x80, 0x00]).length < Nat.pow 2 64 := by
    have hsizes := (fits_ofCertificate Tls.plant hserial).sizes.identifier
    rw [List.length_append]
    exact Nat.lt_of_le_of_lt (Nat.add_le_add_left (by decide) _) hsizes
  have hbegins := beginsSequence_write hcontent []
  rw [List.append_nil] at hbegins
  have hdiffers : Octets.toNat Tls.pump.serial ≠ Octets.toNat c.serial := by decide +kernel
  refine ⟨?_, (hread _ _ _ hbegins).mpr ⟨rfl, by decide +kernel⟩, hsame, hother _ hdiffers⟩
  rw [hasked]
  rfl

end MqttGateway.Ocsp
