import MqttGateway.Packet.Decode
/-!
# What the octets of a length spell

A length is spelled by at most four octets, of which all but the last have their upper bit set. The
octets in front of a body are read as a length exactly if they spell it, be they taken off a stream
or looked for in the data of a frame.
-/
namespace MqttGateway

namespace RemainingLength

def value : Octets → Nat
  | [] => 0
  | b :: bs => b.toNat % 128 + 128 * value bs

/-- The octets spell `n`: their upper bit is set in all but the last, and there are at most four. -/
def Spells (bs : Octets) (n : Nat) : Prop :=
  ∃ init last, bs = init ++ [last] ∧ init.length < 4 ∧ (∀ b ∈ init, 128 ≤ b.toNat) ∧
    last.toNat < 128 ∧ value bs = n

theorem value_lt (bs : Octets) : value bs < Nat.pow 128 bs.length := by
  induction bs with
  | nil => exact Nat.one_pos
  | cons b bs ih =>
    have hb : b.toNat % 128 < 128 := Nat.mod_lt _ (by decide)
    have hpow : Nat.pow 128 (b :: bs).length = Nat.pow 128 bs.length * 128 := rfl
    rw [value, hpow]
    omega

theorem Spells.lt {bs : Octets} {n : Nat} (h : Spells bs n) : n < Nat.pow 128 bs.length := by
  obtain ⟨init, last, rfl, -, -, -, rfl⟩ := h
  exact value_lt _

/-- No length beyond the limit can be spelled. -/
theorem Spells.le_limit {bs : Octets} {n : Nat} (h : Spells bs n) : n ≤ limit := by
  have hlt := h.lt
  have hlength : bs.length ≤ 4 := by
    obtain ⟨init, last, rfl, hinit, -⟩ := h
    rw [List.length_append, List.length_singleton]
    omega
  have hpow : Nat.pow 128 bs.length ≤ Nat.pow 128 4 := Nat.pow_le_pow_right (by decide) hlength
  have hlimit : Nat.pow 128 4 = limit + 1 := rfl
  omega

/-! ## Reading octet by octet -/

theorem readGroups_eq_done_iff {g w s n : Nat} {bs rest : Octets} :
    readGroups g w s bs = .done n rest ↔ ∃ init last, bs = init ++ last :: rest ∧
      init.length < g ∧ (∀ b ∈ init, 128 ≤ b.toNat) ∧ last.toNat < 128 ∧
      s + w * value (init ++ [last]) = n := by
  induction bs generalizing g w s with
  | nil => cases g <;> simp [readGroups]
  | cons b bs ih =>
    cases g with
    | zero => simp [readGroups]
    | succ g =>
      rw [readGroups]
      by_cases hb : b.toNat < 128
      · simp only [hb, if_true, Reading.done.injEq]
        constructor
        · rintro ⟨rfl, rfl⟩
          exact ⟨[], b, rfl, by simp, by simp, hb, by simp [value, Nat.mul_comm]⟩
        · rintro ⟨init, last, hbs, -, hinit, -, hn⟩
          cases init with
          | nil =>
            cases hbs
            exact ⟨by simpa [value, Nat.mul_comm] using hn, rfl⟩
          | cons a init =>
            cases hbs
            exact absurd (hinit b List.mem_cons_self) (Nat.not_le.mpr hb)
      · simp only [hb, if_false, ih]
        have hweigh (m : Nat) : s + b.toNat % 128 * w + w * 128 * m =
            s + w * (b.toNat % 128 + 128 * m) := by
          rw [Nat.mul_add, Nat.mul_comm (b.toNat % 128), Nat.mul_assoc, Nat.add_assoc]
        constructor
        · rintro ⟨init, last, rfl, hlength, hinit, hlast, hn⟩
          refine ⟨b :: init, last, rfl, Nat.succ_lt_succ hlength, ?_, hlast, ?_⟩
          · exact List.forall_mem_cons.mpr ⟨Nat.not_lt.mp hb, hinit⟩
          · rw [List.cons_append, value, ← hweigh, hn]
        · rintro ⟨init, last, hbs, hlength, hinit, hlast, hn⟩
          cases init with
          | nil =>
            cases hbs
            exact absurd hlast hb
          | cons a init =>
            cases hbs
            refine ⟨init, last, rfl, Nat.lt_of_succ_lt_succ hlength,
              (List.forall_mem_cons.mp hinit).2, hlast, ?_⟩
            rw [hweigh, ← hn, List.cons_append, value]

/-- A length is read exactly if the octets in front of the rest spell it. -/
theorem read_eq_done_iff {n : Nat} {bs rest : Octets} :
    read bs = .done n rest ↔ ∃ spelled, Spells spelled n ∧ bs = spelled ++ rest := by
  rw [read, readGroups_eq_done_iff]
  constructor
  · rintro ⟨init, last, rfl, hlength, hinit, hlast, hn⟩
    refine ⟨init ++ [last], ⟨init, last, rfl, hlength, hinit, hlast, ?_⟩, ?_⟩
    · rw [← hn, Nat.zero_add, Nat.one_mul]
    · rw [List.append_assoc, List.singleton_append]
  · rintro ⟨_, ⟨init, last, rfl, hlength, hinit, hlast, hn⟩, rfl⟩
    refine ⟨init, last, ?_, hlength, hinit, hlast, ?_⟩
    · rw [List.append_assoc, List.singleton_append]
    · rw [Nat.zero_add, Nat.one_mul, hn]

theorem Spells.read {bs : Octets} {n : Nat} (h : Spells bs n) (rest : Octets) :
    read (bs ++ rest) = .done n rest :=
  read_eq_done_iff.mpr ⟨bs, h, rfl⟩

theorem Spells.groups {bs : Octets} {n : Nat} (h : Spells bs n) (rest : Octets) :
    groups (bs ++ rest) = bs :=
  List.append_cancel_right (groups_append_rest (h.read rest))

theorem readGroups_eq_short_iff {g w s : Nat} {bs : Octets} :
    readGroups g w s bs = .short ↔ bs.length < g ∧ ∀ b ∈ bs, 128 ≤ b.toNat := by
  induction bs generalizing g w s with
  | nil => cases g <;> simp [readGroups]
  | cons b bs ih =>
    cases g with
    | zero => simp [readGroups]
    | succ g =>
      rw [readGroups]
      by_cases hb : b.toNat < 128
      · simp [hb, Nat.not_le.mpr hb]
      · simp [hb, ih, Nat.not_lt.mp hb]

/-- Nothing is read yet if each of less than four octets tells that another follows. -/
theorem read_eq_short_iff {bs : Octets} :
    read bs = .short ↔ bs.length < 4 ∧ ∀ b ∈ bs, 128 ≤ b.toNat :=
  readGroups_eq_short_iff

theorem readGroups_eq_overlong_iff {g w s : Nat} {bs : Octets} :
    readGroups g w s bs = .overlong ↔ g ≤ bs.length ∧ ∀ b ∈ bs.take g, 128 ≤ b.toNat := by
  induction bs generalizing g w s with
  | nil => cases g <;> simp [readGroups]
  | cons b bs ih =>
    cases g with
    | zero => simp [readGroups]
    | succ g =>
      rw [readGroups]
      by_cases hb : b.toNat < 128
      · simp [hb, Nat.not_le.mpr hb]
      · simp [hb, ih, Nat.not_lt.mp hb]

/-- A length is refused if each of four octets tells that another follows. -/
theorem read_eq_overlong_iff {bs : Octets} :
    read bs = .overlong ↔ 4 ≤ bs.length ∧ ∀ b ∈ bs.take 4, 128 ≤ b.toNat :=
  readGroups_eq_overlong_iff

theorem read_append_of_overlong {bs : Octets} (h : read bs = .overlong) (more : Octets) :
    read (bs ++ more) = .overlong := by
  obtain ⟨hlength, hupper⟩ := read_eq_overlong_iff.mp h
  rw [read_eq_overlong_iff, List.length_append, List.take_append_of_le_length hlength]
  exact ⟨by omega, hupper⟩

/-! ## Looking at its place in the data -/

def Reading.extent (data : Octets) : Reading → Extent
  | .done length body =>
    if body.length < length then .short else .whole (data.length - body.length) length
  | .short => .short
  | .overlong => .overlong

theorem extentFrom_eq (data : Octets) (g place sum : Nat) :
    extentFrom data g place sum =
      (readGroups g (Nat.pow 128 place) sum (data.drop (place + 1))).extent data := by
  induction g generalizing place sum with
  | zero => rw [extentFrom, readGroups]; rfl
  | succ g ih =>
    rw [extentFrom]
    cases hb : data[place + 1]? with
    | none =>
      rw [List.drop_eq_nil_of_le (List.getElem?_eq_none_iff.mp hb), readGroups]
      rfl
    | some b =>
      obtain ⟨hlt, rfl⟩ := List.getElem?_eq_some_iff.mp hb
      have hweight : (data[place + 1].toNat % 128) <<< (7 * place) =
          data[place + 1].toNat % 128 * Nat.pow 128 place := by
        rw [Nat.shiftLeft_eq, Nat.pow_mul]
        rfl
      rw [List.drop_eq_getElem_cons hlt, readGroups]
      simp only [hweight]
      split
      case isFalse => exact ih (place + 1) _
      case isTrue =>
        have hbody : (data.drop (place + 1 + 1)).length = data.length - (place + 2) :=
          List.length_drop
        simp only [Reading.extent, hbody]
        have hstart : data.length - (data.length - (place + 2)) = place + 2 := by omega
        rw [hstart]
        split
        case isTrue h => rw [if_pos (by omega)]
        case isFalse h => rw [if_neg (by omega)]

/-- The extent that is found in the data of a frame is the one that is read off a stream. -/
theorem extent_cons (head : UInt8) (after : Octets) :
    extent (head :: after) = (read after).extent (head :: after) :=
  extentFrom_eq (head :: after) 4 0 0

end RemainingLength

namespace Packet

open PacketReader

/-- Decoding reads the length behind the head and then the body, all of which must be there. -/
theorem decode_cons (head : UInt8) (after : Octets) : decode (head :: after) =
    match RemainingLength.read after with
    | .short => .error (.error .incomplete)
    | .overlong => .error (.error (.malformed .header))
    | .done length body =>
      if body.length < length then .error (.error .incomplete)
      else
        let packet : PacketReader Packet := do readBody (head :: after) (← kindOf head) head length
        (packet.run body).map (·.1) := by
  have hextent := RemainingLength.extent_cons head after
  cases hread : RemainingLength.read after with
  | short =>
    rw [hread] at hextent
    simp only [decode, hextent, RemainingLength.Reading.extent]
  | overlong =>
    rw [hread] at hextent
    simp only [decode, hextent, RemainingLength.Reading.extent]
  | done length body =>
    obtain ⟨spelled, -, rfl⟩ := RemainingLength.read_eq_done_iff.mp hread
    have hbody : (head :: (spelled ++ body)).drop
        ((head :: (spelled ++ body)).length - body.length) = body := by
      rw [← List.cons_append, List.length_append, Nat.add_sub_cancel, List.drop_left]
    rw [hread, RemainingLength.Reading.extent] at hextent
    split at hextent
    case isTrue hshort => simp only [decode, hextent, hshort, if_true]
    case isFalse hlong => simp only [decode, hextent, hlong, if_false, hbody]

end Packet
end MqttGateway
