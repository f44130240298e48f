import MqttGateway.Proofs.Checks
import MqttGateway.Proofs.Packet.Fields
/-!
# What readers read

A reader that reads something has read the written form of it, and leaves what comes behind. It
reads beyond the end of the data only for an octet or a number: a field tells its own length, and is
refused if there are not as many octets.
-/
namespace MqttGateway

namespace Octets

theorem ofUInt16_toUInt16 (hi lo : UInt8) : ofUInt16 (toUInt16 hi lo) = [hi, lo] := by
  have hn := toNat_toUInt16 hi lo
  have hhi := hi.toNat_lt
  have hlo := lo.toNat_lt
  have h1 : (toUInt16 hi lo >>> 8).toUInt8 = hi := by
    rw [← UInt8.toNat_inj]
    simp only [UInt16.toNat_toUInt8, UInt16.toNat_shiftRight, hn, UInt16.toNat_ofNat, Nat.reducePow,
      Nat.reduceMod, Nat.shiftRight_eq_div_pow]
    omega
  have h2 : (toUInt16 hi lo).toUInt8 = lo := by
    rw [← UInt8.toNat_inj, UInt16.toNat_toUInt8, hn]
    omega
  rw [ofUInt16, h1, h2]

end Octets

namespace PacketReader

variable {α β : Type} {item : PacketReader α} {next : α → PacketReader β} {bs rest : Octets}
  {a : α} {b : β}

/-! ## What is read -/

theorem reads_map_iff {f : α → β} :
    (f <$> item) bs = .ok (b, rest) ↔ ∃ a, item bs = .ok (a, rest) ∧ f a = b := by
  rw [map_eq_pure_bind, reads_bind_iff]
  simp only [reads_pure_iff]
  constructor
  · rintro ⟨a, _, ha, hb, rfl⟩
    exact ⟨a, ha, hb⟩
  · rintro ⟨a, ha, hb⟩
    exact ⟨a, rest, ha, hb, rfl⟩

theorem reads_discard_iff {u : Unit} :
    discard item bs = .ok (u, rest) ↔ ∃ a, item bs = .ok (a, rest) := by
  show ((fun _ => ()) <$> item) bs = .ok ((), rest) ↔ _
  simp only [reads_map_iff, and_true]

@[simp] theorem not_reads_refuse {fault : DecodeFault} :
    (refuse fault : PacketReader α) bs ≠ .ok (a, rest) :=
  nofun

theorem reads_octet_iff {b : UInt8} : octet bs = .ok (b, rest) ↔ bs = b :: rest := by
  cases bs with
  | nil => exact ⟨nofun, nofun⟩
  | cons x xs => simp [octet]

theorem reads_uint16_iff {n : UInt16} :
    uint16 bs = .ok (n, rest) ↔ bs = Octets.ofUInt16 n ++ rest := by
  constructor
  · intro h
    obtain ⟨hi, _, hhi, h⟩ := reads_bind_iff.mp h
    obtain ⟨lo, _, hlo, h⟩ := reads_bind_iff.mp h
    obtain ⟨rfl, rfl⟩ := reads_pure_iff.mp h
    rw [reads_octet_iff.mp hhi, reads_octet_iff.mp hlo, Octets.ofUInt16_toUInt16]
    rfl
  · rintro rfl
    exact uint16_reads n rest

theorem reads_packetId_iff {id : UInt16} :
    packetId bs = .ok (id, rest) ↔ id ≠ 0 ∧ bs = Octets.ofUInt16 id ++ rest := by
  constructor
  · intro h
    obtain ⟨n, _, hn, h⟩ := reads_bind_iff.mp h
    by_cases hzero : n = 0
    · rw [if_pos hzero] at h
      exact absurd h not_reads_refuse
    · rw [if_neg hzero] at h
      obtain ⟨rfl, rfl⟩ := reads_pure_iff.mp h
      exact ⟨hzero, reads_uint16_iff.mp hn⟩
  · rintro ⟨hid, rfl⟩
    exact packetId_reads hid rest

theorem reads_field_iff {octets : Octets} :
    field bs = .ok (octets, rest) ↔ octets.length ≤ 65535 ∧ bs = Field.write octets ++ rest := by
  constructor
  · intro h
    unfold field at h
    split at h
    case h_2 => cases h
    case h_1 hi lo after =>
      dsimp only at h
      split at h
      case isTrue => cases h
      case isFalse hlong =>
        cases h
        have hlength : (after.take (Octets.toUInt16 hi lo).toNat).length =
            (Octets.toUInt16 hi lo).toNat := by
          rw [List.length_take]
          omega
        have hlt := (Octets.toUInt16 hi lo).toNat_lt
        refine ⟨by omega, ?_⟩
        rw [Field.write, hlength, UInt16.ofNat_toNat, Octets.ofUInt16_toUInt16, List.append_assoc,
          List.take_append_drop]
        rfl
  · rintro ⟨hlength, rfl⟩
    exact field_reads hlength rest

theorem reads_text_iff {s : String} : text bs = .ok (s, rest) ↔
    (Utf8.encode s).length ≤ 65535 ∧ bs = Field.write (Utf8.encode s) ++ rest := by
  constructor
  · intro h
    obtain ⟨octets, _, hfield, h⟩ := reads_bind_iff.mp h
    cases hdecode : Utf8.decode octets with
    | error fault =>
      rw [hdecode] at h
      cases h
    | ok s' =>
      rw [hdecode] at h
      obtain ⟨rfl, rfl⟩ := reads_pure_iff.mp h
      rw [Utf8.encode_of_decode hdecode]
      exact reads_field_iff.mp hfield
  · rintro ⟨hlength, rfl⟩
    exact text_reads hlength rest

theorem reads_qos_iff {level c : UInt8} :
    qos level bs = .ok (c, rest) ↔ level ≤ 2 ∧ level = c ∧ bs = rest := by
  by_cases hlevel : level ≤ 2 <;> simp [qos, hlevel]

/-- Items that are read up to an end are the written forms of such items, each of which begins in
front of that end. -/
theorem untilLeft_reads_items {stop : Nat} {write : α → Octets} {P : α → Prop} {as : List α}
    (hitem : ∀ {bs a rest}, item bs = .ok (a, rest) → P a ∧ bs = write a ++ rest)
    (h : untilLeft item stop bs = .ok (as, rest)) :
    (∀ a ∈ as, P a) ∧ bs = as.flatMap write ++ rest := by
  induction hn : bs.length using Nat.strongRecOn generalizing bs as with
  | ind n ih =>
    rw [untilLeft] at h
    split at h
    case isTrue =>
      cases h
      exact ⟨List.forall_mem_nil _, rfl⟩
    case isFalse =>
      split at h
      case h_1 => cases h
      case h_2 a mid hread =>
        obtain ⟨ha, hbs⟩ := hitem hread
        split at h
        case isTrue hlt =>
          obtain ⟨⟨more, _⟩, hmore, hpure⟩ := bind_eq_ok_iff.mp h
          cases hpure
          obtain ⟨hall, hmid⟩ := ih mid.length (hn ▸ hlt) hmore rfl
          refine ⟨List.forall_mem_cons.mpr ⟨ha, hall⟩, ?_⟩
          rw [List.flatMap_cons, List.append_assoc, ← hmid, hbs]
        case isFalse =>
          cases h
          exact ⟨by simpa using ha, by simpa using hbs⟩

/-! ## Where the end is overrun -/

theorem overruns_bind_iff : (item >>= next) bs = .error .overrun ↔
    item bs = .error .overrun ∨
      ∃ a mid, item bs = .ok (a, mid) ∧ next a mid = .error .overrun := by
  have hbind : (item >>= next) bs = (item bs >>= fun found => next found.1 found.2) := rfl
  rw [hbind]
  cases item bs with
  | error halt =>
    constructor
    · rintro ⟨⟩
      exact .inl rfl
    · rintro (⟨⟨⟩⟩ | ⟨_, _, ⟨⟩, _⟩)
      rfl
  | ok found =>
    constructor
    · exact fun h => .inr ⟨found.1, found.2, rfl, h⟩
    · rintro (⟨⟨⟩⟩ | ⟨_, _, ⟨⟩, h⟩)
      exact h

def Safe (item : PacketReader α) : Prop :=
  ∀ bs, item bs ≠ .error .overrun

theorem Safe.pure (a : α) : Safe (pure a : PacketReader α) :=
  fun _ => nofun

theorem Safe.refuse (fault : DecodeFault) : Safe (refuse fault : PacketReader α) :=
  fun _ => nofun

/-- What is safe leaves it to what follows to overrun the end. -/
theorem Safe.overruns_bind_iff (h : Safe item) : (item >>= next) bs = .error .overrun ↔
    ∃ a mid, item bs = .ok (a, mid) ∧ next a mid = .error .overrun := by
  rw [PacketReader.overruns_bind_iff]
  exact or_iff_right (h bs)

theorem overruns_bind_safe_iff (h : ∀ a, Safe (next a)) :
    (item >>= next) bs = .error .overrun ↔ item bs = .error .overrun := by
  rw [overruns_bind_iff]
  exact or_iff_left fun ⟨a, mid, _, hnext⟩ => h a mid hnext

theorem Safe.bind (h : Safe item) (hnext : ∀ a, Safe (next a)) : Safe (item >>= next) := by
  intro bs hover
  exact h bs ((overruns_bind_safe_iff hnext).mp hover)

theorem overruns_map_iff {f : α → β} :
    (f <$> item) bs = .error .overrun ↔ item bs = .error .overrun := by
  rw [map_eq_pure_bind]
  exact overruns_bind_safe_iff fun a => .pure (f a)

theorem overruns_discard_iff : discard item bs = .error .overrun ↔ item bs = .error .overrun :=
  overruns_map_iff (f := fun _ => ())

theorem Safe.map (f : α → β) (h : Safe item) : Safe (f <$> item) :=
  fun bs hover => h bs (overruns_map_iff.mp hover)

theorem overruns_octet_iff : octet bs = .error .overrun ↔ bs = [] := by
  cases bs with
  | nil => exact ⟨fun _ => rfl, fun _ => rfl⟩
  | cons b bs => exact ⟨nofun, nofun⟩

theorem overruns_uint16_iff : uint16 bs = .error .overrun ↔ bs.length < 2 := by
  match bs with
  | [] => exact ⟨fun _ => by decide, fun _ => rfl⟩
  | [_] => exact ⟨fun _ => Nat.one_lt_two, fun _ => rfl⟩
  | _ :: _ :: _ => exact ⟨nofun, fun h => absurd h (by simp)⟩

theorem overruns_packetId_iff : packetId bs = .error .overrun ↔ bs.length < 2 := by
  rw [← overruns_uint16_iff, packetId]
  refine overruns_bind_safe_iff fun id => ?_
  split
  · exact .refuse _
  · exact .pure _

theorem field_safe : Safe field := by
  intro bs
  unfold field
  split
  case h_1 =>
    dsimp only
    split <;> nofun
  case h_2 => nofun

theorem text_safe : Safe text := by
  refine field_safe.bind fun octets => ?_
  split
  · exact .pure _
  · exact .refuse _

theorem qos_safe (level : UInt8) : Safe (qos level) := by
  unfold qos
  split
  · exact .pure _
  · exact .refuse _

/-- Items that need no more than one octet are all there in front of their end. -/
theorem untilLeft_safe (stop : Nat) (h : ∀ bs, item bs = .error .overrun → bs = []) :
    Safe (untilLeft item stop) := by
  intro bs
  induction hn : bs.length using Nat.strongRecOn generalizing bs with
  | ind n ih =>
    rw [untilLeft]
    split
    case isTrue => rintro ⟨⟩
    case isFalse hlong =>
      split
      case h_1 halt hread =>
        rintro ⟨⟩
        rw [h bs hread] at hlong
        exact hlong (Nat.zero_le _)
      case h_2 a rest hread =>
        split
        case isFalse => rintro ⟨⟩
        case isTrue hlt =>
          have hrest := ih rest.length (by rwa [← hn]) rest rfl
          cases htail : untilLeft item stop rest with
          | ok found => rintro ⟨⟩
          | error halt =>
            rintro ⟨⟩
            exact hrest htail

/-- A list of items overruns the end just if, behind some of them and in front of its end, the next
one does. -/
theorem overruns_untilLeft_iff {stop : Nat} {write : α → Octets} {P : α → Prop}
    (hitem : ∀ {bs a rest}, item bs = .ok (a, rest) ↔ P a ∧ bs = write a ++ rest)
    (hwrite : ∀ a, write a ≠ []) : untilLeft item stop bs = .error .overrun ↔
      ∃ (as : List α) (mid : Octets), (∀ a ∈ as, P a) ∧ bs = as.flatMap write ++ mid ∧ stop < mid.length ∧
        item mid = .error .overrun := by
  have hshorter (a : α) (rest : Octets) : rest.length < (write a ++ rest).length := by
    have := List.length_pos_iff.mpr (hwrite a)
    rw [List.length_append]
    omega
  induction hn : bs.length using Nat.strongRecOn generalizing bs with
  | ind n ih =>
    rw [untilLeft]
    split
    case isTrue hend =>
      refine ⟨by rintro ⟨⟩, ?_⟩
      rintro ⟨as, mid, -, rfl, hlt, -⟩
      rw [List.length_append] at hend
      omega
    case isFalse hlong =>
      split
      case h_1 halt hread =>
        constructor
        · rintro ⟨⟩
          exact ⟨[], bs, List.forall_mem_nil _, rfl, by omega, hread⟩
        · rintro ⟨as, mid, has, hbs, -, hover⟩
          cases as with
          | nil =>
            rw [List.flatMap_nil, List.nil_append] at hbs
            rw [hbs, hover] at hread
            cases hread
            rfl
          | cons a as =>
            rw [List.flatMap_cons, List.append_assoc] at hbs
            rw [hitem.mpr ⟨(List.forall_mem_cons.mp has).1, hbs⟩] at hread
            cases hread
      case h_2 a rest hread =>
        obtain ⟨ha, hbs⟩ := hitem.mp hread
        have hlt : rest.length < bs.length := hbs ▸ hshorter a rest
        have htail := ih rest.length (by rwa [← hn]) rfl
        rw [dif_pos hlt, bind_eq_error_iff]
        refine (or_iff_left ?_).trans (htail.trans ⟨?_, ?_⟩)
        · rintro ⟨_, -, ⟨⟩⟩
        · rintro ⟨as, mid, has, rfl, hmid, hover⟩
          refine ⟨a :: as, mid, List.forall_mem_cons.mpr ⟨ha, has⟩, ?_, hmid, hover⟩
          rw [List.flatMap_cons, List.append_assoc, hbs]
        · rintro ⟨as, mid, has, hsplit, hmid, hover⟩
          cases as with
          | nil =>
            rw [List.flatMap_nil, List.nil_append] at hsplit
            rw [hsplit, hover] at hread
            cases hread
          | cons a' as =>
            obtain ⟨ha', hmore⟩ := List.forall_mem_cons.mp has
            rw [List.flatMap_cons, List.append_assoc] at hsplit
            rw [hitem.mpr ⟨ha', hsplit⟩] at hread
            cases hread
            exact ⟨as, mid, hmore, rfl, hmid, hover⟩

end PacketReader
end MqttGateway
