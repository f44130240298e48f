import MqttGateway.Frame
import MqttGateway.Proofs.Packet.Length
import MqttGateway.Proofs.Text.Utf8
/-!
# Reading back lengths and fields

What is written of a length or of a field is read as it was, and what follows it is left.
-/
namespace MqttGateway

namespace RemainingLength

theorem readGroups_encode {g n : Nat} (w s : Nat) (rest : Octets) (hn : n < Nat.pow 128 (g + 1)) :
    readGroups (g + 1) w s (encode n ++ rest) = .done (s + n * w) rest := by
  induction g generalizing n w s with
  | zero =>
    have hn : n < 128 := hn
    rw [encode, if_pos hn, List.singleton_append, readGroups,
      UInt8.toNat_ofNat_of_lt' (show _ < 256 by omega), if_pos hn, Nat.mod_eq_of_lt hn]
  | succ g ih =>
    rw [encode]
    split
    case isTrue h =>
      rw [List.singleton_append, readGroups, UInt8.toNat_ofNat_of_lt' (show _ < 256 by omega),
        if_pos h, Nat.mod_eq_of_lt h]
    case isFalse h =>
      have hdiv : n / 128 < Nat.pow 128 (g + 1) :=
        Nat.div_lt_of_lt_mul (Nat.mul_comm _ 128 ▸ hn)
      have hsum : n % 128 * w + n / 128 * (w * 128) = n * w := by
        rw [Nat.mul_comm w, ← Nat.mul_assoc, ← Nat.add_mul, Nat.mul_comm (n / 128), Nat.mod_add_div]
      rw [List.cons_append, readGroups, UInt8.toNat_ofNat_of_lt' (show _ < 256 by omega),
        if_neg (by omega), ih _ _ hdiv, Nat.add_mod_right, Nat.mod_mod, Nat.add_assoc, hsum]

/-- A length is read back, and what follows it is left. -/
theorem read_encode {n : Nat} (hn : n ≤ limit) (rest : Octets) :
    read (encode n ++ rest) = .done n rest := by
  have hlt : n < Nat.pow 128 4 := Nat.lt_of_le_of_lt hn (by decide)
  rw [read, readGroups_encode 1 0 rest hlt, Nat.zero_add, Nat.mul_one]

/-- What is written as a length spells it. -/
theorem encode_spells {n : Nat} (hn : n ≤ limit) : Spells (encode n) n := by
  obtain ⟨spelled, hspells, hsame⟩ := read_eq_done_iff.mp (read_encode hn [])
  rw [List.append_nil, List.append_nil] at hsame
  rw [hsame]
  exact hspells

theorem length_encode (n : Nat) :
    (encode n).length = if n < 128 then 1 else (encode (n / 128)).length + 1 := by
  rw [encode]
  split <;> rfl

/-- A length is written in no more octets than can hold it. -/
theorem length_encode_le {n k : Nat} (h : n < Nat.pow 128 (k + 1)) :
    (encode n).length ≤ k + 1 := by
  induction k generalizing n with
  | zero =>
    have hlt : n < 128 := h
    have hone : (encode n).length = 1 := by rw [length_encode, if_pos hlt]
    exact Nat.le_of_eq hone
  | succ k ih =>
    have hdiv : n / 128 < Nat.pow 128 (k + 1) := Nat.div_lt_of_lt_mul (Nat.mul_comm _ 128 ▸ h)
    have hrest := ih hdiv
    rw [length_encode]
    split <;> omega

/-- What is written of a length is no longer than any other spelling of it or of a greater one. -/
theorem Spells.length_encode_le {bs : Octets} {m n : Nat} (h : Spells bs n) (hm : m ≤ n) :
    (encode m).length ≤ bs.length := by
  have hlt := h.lt
  obtain ⟨init, last, rfl, -⟩ := h
  rw [List.length_append, List.length_singleton] at hlt ⊢
  exact RemainingLength.length_encode_le (Nat.lt_of_le_of_lt hm hlt)

/-- The width is the number of octets that are written, up to the limit. -/
theorem width?_eq (n : Nat) : width? n = if n ≤ limit then some (encode n).length else none := by
  unfold width? limit
  rw [length_encode n, length_encode (n / 128), length_encode (n / 128 / 128),
    length_encode (n / 128 / 128 / 128)]
  simp only [Nat.div_div_eq_div_mul, Nat.reduceMul]
  by_cases h1 : n ≤ 127
  · rw [if_pos h1, if_pos (by omega), if_pos (by omega)]
  by_cases h2 : n ≤ 16383
  · rw [if_neg h1, if_pos h2, if_pos (by omega), if_neg (by omega), if_pos (by omega)]
  by_cases h3 : n ≤ 2097151
  · rw [if_neg h1, if_neg h2, if_pos h3, if_pos (by omega), if_neg (by omega), if_neg (by omega),
      if_pos (by omega)]
  by_cases h4 : n ≤ 268435455
  · rw [if_neg h1, if_neg h2, if_neg h3, if_pos h4, if_pos h4, if_neg (by omega),
      if_neg (by omega), if_neg (by omega), if_pos (by omega)]
  · rw [if_neg h1, if_neg h2, if_neg h3, if_neg h4, if_neg h4]

end RemainingLength

namespace Octets

theorem toNat_toUInt16 (hi lo : UInt8) : (toUInt16 hi lo).toNat = hi.toNat * 256 + lo.toNat := by
  have hhi := hi.toNat_lt
  have hlo := lo.toNat_lt
  have hor : hi.toNat <<< 8 ||| lo.toNat = hi.toNat * 256 + lo.toNat := by
    rw [Nat.shiftLeft_eq, Nat.mul_comm, ← Nat.two_pow_add_eq_or_of_lt hlo]
  simp only [toUInt16, UInt16.toNat_or, UInt16.toNat_shiftLeft, UInt8.toNat_toUInt16,
    UInt16.toNat_ofNat, Nat.reducePow, Nat.reduceMod]
  rw [Nat.mod_eq_of_lt (by rw [Nat.shiftLeft_eq]; omega), hor]

/-- A number is read back from its two octets. -/
theorem toUInt16_ofUInt16 (n : UInt16) : toUInt16 (n >>> 8).toUInt8 n.toUInt8 = n := by
  apply UInt16.toNat_inj.mp
  have hn := n.toNat_lt
  rw [toNat_toUInt16]
  simp only [UInt16.toNat_toUInt8, UInt16.toNat_shiftRight, UInt16.toNat_ofNat, Nat.reducePow,
    Nat.reduceMod, Nat.shiftRight_eq_div_pow]
  omega

theorem length_ofUInt16 (n : UInt16) : (ofUInt16 n).length = 2 := rfl

end Octets

theorem Field.length_write (octets : Octets) : (Field.write octets).length = 2 + octets.length := by
  rw [Field.write, List.length_append, Octets.length_ofUInt16]

namespace PacketReader

variable {α β : Type} {item : PacketReader α} {bs cs : Octets} {a : α}

/-- The reader takes `a` from these octets, whatever follows them, and leaves what follows. -/
def Reads (item : PacketReader α) (bs : Octets) (a : α) : Prop :=
  ∀ rest, item (bs ++ rest) = .ok (a, rest)

theorem Reads.pure (a : α) : Reads (pure a : PacketReader α) [] a :=
  fun _ => rfl

theorem Reads.bind {next : α → PacketReader β} {b : β} (h : Reads item bs a)
    (hnext : Reads (next a) cs b) : Reads (item >>= next) (bs ++ cs) b := by
  intro rest
  show (item (bs ++ cs ++ rest)).bind (fun x => next x.1 x.2) = .ok (b, rest)
  rw [List.append_assoc, h]
  exact hnext rest

theorem Reads.map (f : α → β) (h : Reads item bs a) : Reads (f <$> item) bs (f a) := by
  intro rest
  show (item (bs ++ rest)).bind (fun x => .ok (f x.1, x.2)) = .ok (f a, rest)
  rw [h]
  rfl

theorem octet_reads (b : UInt8) : Reads octet [b] b :=
  fun _ => rfl

theorem uint16_reads (n : UInt16) : Reads uint16 (Octets.ofUInt16 n) n := by
  have hlo : Reads (do let lo ← octet; return Octets.toUInt16 (n >>> 8).toUInt8 lo : PacketReader _)
      ([n.toUInt8] ++ []) n := by
    refine (octet_reads n.toUInt8).bind ?_
    rw [Octets.toUInt16_ofUInt16]
    exact Reads.pure n
  exact (octet_reads (n >>> 8).toUInt8).bind hlo

theorem packetId_reads {id : UInt16} (h : id ≠ 0) : Reads packetId (Octets.ofUInt16 id) id := by
  rw [← List.append_nil (Octets.ofUInt16 id)]
  refine (uint16_reads id).bind ?_
  rw [if_neg h]
  exact Reads.pure id

theorem field_reads {octets : Octets} (h : octets.length ≤ 65535) :
    Reads field (Field.write octets) octets := by
  intro rest
  have hlength : (UInt16.ofNat octets.length).toNat = octets.length :=
    UInt16.toNat_ofNat_of_lt' (Nat.lt_succ_of_le h)
  simp only [Field.write, Octets.ofUInt16, List.cons_append, List.nil_append, field,
    Octets.toUInt16_ofUInt16, hlength]
  rw [if_neg (by rw [List.length_append]; omega), List.take_left, List.drop_left]

theorem text_reads {s : String} (h : (Utf8.encode s).length ≤ 65535) :
    Reads text (Field.write (Utf8.encode s)) s := by
  intro rest
  have hfield := field_reads h rest
  simp only [text, bind, StateT.bind, hfield, Except.bind, Utf8.decode_encode]
  rfl

theorem qos_reads {level : UInt8} (h : level ≤ 2) : Reads (qos level) [] level := by
  rw [qos, if_pos h]
  exact Reads.pure level

/-- Items that take up room are read one after another up to the given end. -/
theorem untilLeft_reads {write : α → Octets} (items : List α) (rest : Octets)
    (h : ∀ a ∈ items, Reads item (write a) a ∧ write a ≠ []) :
    untilLeft item rest.length (items.flatMap write ++ rest) = .ok (items, rest) := by
  induction items with
  | nil => rw [untilLeft, List.flatMap_nil, List.nil_append, if_pos (Nat.le_refl _)]
  | cons a items ih =>
    obtain ⟨hread, hne⟩ := h a List.mem_cons_self
    have hpos := List.length_pos_iff.mpr hne
    have hsplit := @List.length_append _ (write a) (items.flatMap write ++ rest)
    have hlength : (items.flatMap write ++ rest).length <
        (write a ++ (items.flatMap write ++ rest)).length := by
      omega
    have hmore : ¬ (write a ++ (items.flatMap write ++ rest)).length ≤ rest.length := by
      rw [List.length_append] at hlength
      omega
    rw [List.flatMap_cons, List.append_assoc, untilLeft, if_neg hmore, hread]
    simp only [hlength, dif_pos, ih fun a ha => h a (List.mem_cons_of_mem _ ha)]
    rfl

end PacketReader
end MqttGateway
