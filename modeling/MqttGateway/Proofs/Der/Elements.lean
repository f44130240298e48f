import MqttGateway.Proofs.Checks
import MqttGateway.Revocation.Ocsp.Response
/-!
# Where elements end

An element is read from its own octets alone, whatever follows them. So what is taken as the
encoding of an element is that encoding and nothing else.
-/
namespace MqttGateway.Der

variable {α β : Type} {inner : Reader α} {next : α → Reader β} {bs x rest content : Octets}
  {a : α}

theorem reads_require_iff {condition : Bool} {u : Unit} :
    require condition bs = .ok (u, rest) ↔ condition = true ∧ bs = rest := by
  cases condition with
  | true => exact reads_pure_iff.trans (by simp)
  | false => exact ⟨nofun, nofun⟩

theorem read_eq_ok_iff : read inner bs = .ok a ↔ ∃ rest, inner bs = .ok (a, rest) := by
  rw [read]
  cases inner bs with
  | error fault => exact ⟨nofun, nofun⟩
  | ok found =>
    constructor
    · rintro ⟨⟩
      exact ⟨found.2, rfl⟩
    · rintro ⟨rest, ⟨⟩⟩
      rfl

theorem reads_within_iff :
    within content inner bs = .ok (a, rest) ↔ read inner content = .ok a ∧ bs = rest := by
  rw [read_eq_ok_iff, within]
  cases inner content with
  | error fault => exact ⟨nofun, nofun⟩
  | ok found =>
    rw [reads_pure_iff]
    constructor
    · rintro ⟨rfl, rfl⟩
      exact ⟨⟨found.2, rfl⟩, rfl⟩
    · rintro ⟨⟨rest, ⟨⟩⟩, rfl⟩
      exact ⟨rfl, rfl⟩

/-! ## Readers that look no further -/

/-- What is read does not depend on the octets that are left. -/
def IsLocal (inner : Reader α) : Prop :=
  ∀ ⦃bs a rest⦄, inner bs = .ok (a, rest) →
    ∃ x, bs = x ++ rest ∧ ∀ more, inner (x ++ more) = .ok (a, more)

theorem isLocal_pure (a : α) : IsLocal (pure a) := by
  intro bs b rest h
  obtain ⟨rfl, rfl⟩ := reads_pure_iff.mp h
  exact ⟨[], rfl, fun more => rfl⟩

theorem isLocal_refuse : IsLocal (refuse : Reader α) :=
  nofun

theorem IsLocal.bind (hinner : IsLocal inner) (hnext : ∀ a, IsLocal (next a)) :
    IsLocal (inner >>= next) := by
  intro bs b rest h
  obtain ⟨a, mid, ha, hb⟩ := reads_bind_iff.mp h
  obtain ⟨x, rfl, hx⟩ := hinner ha
  obtain ⟨y, rfl, hy⟩ := hnext a hb
  refine ⟨x ++ y, (List.append_assoc x y rest).symm, fun more => ?_⟩
  rw [List.append_assoc]
  exact reads_bind_iff.mpr ⟨a, y ++ more, hx _, hy more⟩

theorem isLocal_octet : IsLocal octet := by
  intro bs b rest h
  cases bs with
  | nil => cases h
  | cons c bs =>
    cases h
    exact ⟨[b], rfl, fun more => rfl⟩

theorem isLocal_octets (n : Nat) : IsLocal (octets n) := by
  intro bs taken rest h
  rw [octets] at h
  split at h
  case isTrue => cases h
  case isFalse hlong =>
    cases h
    refine ⟨bs.take n, (List.take_append_drop n bs).symm, fun more => ?_⟩
    have hlength : (bs.take n).length = n := by
      rw [List.length_take]
      omega
    rw [octets, if_neg (by rw [List.length_append]; omega), List.take_left' hlength,
      List.drop_left' hlength]

theorem isLocal_longTag (room n : Nat) : IsLocal (longTag room n) := by
  induction room generalizing n with
  | zero => exact isLocal_refuse
  | succ room ih =>
    intro bs tag rest h
    cases bs with
    | nil => cases h
    | cons b bs =>
      simp only [longTag] at h
      split at h
      case isTrue hlast =>
        cases h
        exact ⟨[b], rfl, fun more => by simp [longTag, hlast]⟩
      case isFalse hlast =>
        obtain ⟨x, rfl, hx⟩ := ih _ h
        exact ⟨b :: x, rfl, fun more => by simp [longTag, hlast, hx more]⟩

theorem isLocal_length : IsLocal length := by
  refine isLocal_octet.bind fun b => ?_
  split
  · exact isLocal_pure _
  split
  · exact isLocal_refuse
  refine (isLocal_octets _).bind fun digits => ?_
  dsimp only
  split
  · exact isLocal_pure _
  · exact isLocal_refuse

theorem isLocal_header : IsLocal header := by
  refine isLocal_octet.bind fun b => ?_
  have hheader : ∀ tag, IsLocal (do return (⟨classOf b, b &&& 0x20 ≠ 0, tag, ← length⟩ : Header)) :=
    fun tag => isLocal_length.bind fun n => isLocal_pure _
  dsimp only
  split
  · exact (isLocal_longTag 5 0).bind hheader
  · exact hheader _

theorem isLocal_element : IsLocal element :=
  isLocal_header.bind fun h => (isLocal_octets h.length).bind fun _ => isLocal_pure _

/-! ## Whole elements -/

def IsElement (x : Octets) : Prop :=
  ∃ e, element x = .ok (e, [])

theorem encoded_eq_ok_iff :
    Ocsp.encoded bs = .ok (x, rest) ↔ IsElement x ∧ bs = x ++ rest := by
  have hencoded : Ocsp.encoded bs =
      (element bs >>= fun found => pure (bs.take (bs.length - found.2.length), found.2)) := rfl
  rw [hencoded, bind_eq_ok_iff]
  constructor
  · rintro ⟨⟨e, rest⟩, helement, ⟨⟩⟩
    obtain ⟨y, rfl, hy⟩ := isLocal_element helement
    have hwhole := hy []
    rw [List.append_nil] at hwhole
    have htake : (y ++ rest).take ((y ++ rest).length - rest.length) = y := by
      rw [List.length_append, Nat.add_sub_cancel, List.take_left]
    rw [htake]
    exact ⟨⟨e, hwhole⟩, rfl⟩
  · rintro ⟨⟨e, hwhole⟩, rfl⟩
    obtain ⟨y, hy, hmore⟩ := isLocal_element hwhole
    rw [List.append_nil] at hy
    subst hy
    refine ⟨(e, rest), hmore rest, ?_⟩
    rw [pure_eq_ok_iff, List.length_append, Nat.add_sub_cancel, List.take_left]

def BeginsSequence (bs content : Octets) : Prop :=
  ∃ header rest, element bs = .ok (⟨header, content⟩, rest) ∧
    header.tag = Tag.sequence ∧ header.constructed

/-- A record is read from the content of a sequence and from nothing else. -/
theorem read_record_iff : read (Ocsp.CertId.record inner) bs = .ok a ↔
    ∃ content, BeginsSequence bs content ∧ read inner content = .ok a := by
  rw [read_eq_ok_iff, Ocsp.CertId.record, tagged]
  simp only [reads_bind_iff, reads_require_iff, reads_within_iff, reads_pure_iff, beq_iff_eq]
  constructor
  · rintro ⟨rest, e, _, ⟨e', _, helement, _, _, ⟨htag, rfl⟩, rfl, rfl⟩, _, _, ⟨hwhole, rfl⟩,
      hread, rfl⟩
    exact ⟨e'.content, ⟨e'.header, _, helement, htag, hwhole⟩, hread⟩
  · rintro ⟨content, ⟨header, rest, helement, htag, hwhole⟩, hread⟩
    exact ⟨rest, ⟨header, content⟩, rest, ⟨_, _, helement, (), rest, ⟨htag, rfl⟩, rfl, rfl⟩,
      (), rest, ⟨hwhole, rfl⟩, hread, rfl⟩

end MqttGateway.Der
