import MqttGateway.Text.Utf8
/-!
# Reading back UTF-8

Main statement: what a text is encoded as decodes to that text, and nothing else does.
-/
namespace MqttGateway.Utf8

theorem trail_ofNat {seen lo hi n : Nat} (rest : Octets) (hlo : lo ≤ n) (hhi : n ≤ hi)
    (hn : n < 256) : trail seen lo hi (UInt8.ofNat n :: rest) = .ok (n % 64, rest) := by
  simp only [trail, UInt8.toNat_ofNat_of_lt' hn, hlo, hhi, and_self, if_true]

/-- The octets of a character are read as that character. -/
theorem scalar_utf8EncodeChar (c : Char) : ∃ b bs, String.utf8EncodeChar c = b :: bs ∧
    ∀ rest, scalar b (bs ++ rest) = .ok (c, rest) := by
  have hv : c.val.toNat = c.toNat := rfl
  have hc : Char.ofNat c.toNat = c := Char.ofNat_toNat c
  have hvalid : c.toNat < 0xD800 ∨ 0xDFFF < c.toNat ∧ c.toNat < 0x110000 := c.valid
  simp only [String.utf8EncodeChar, hv]
  generalize c.toNat = v at hc hvalid
  split
  case isTrue h1 =>
    refine ⟨_, _, rfl, fun rest => ?_⟩
    rw [scalar, UInt8.toNat_ofNat_of_lt' (show _ < 256 by omega), if_pos (by omega), hc]
    rfl
  case isFalse h1 =>
    split
    case isTrue h2 =>
      refine ⟨_, _, rfl, fun rest => ?_⟩
      rw [scalar, UInt8.toNat_ofNat_of_lt' (show _ < 256 by omega), if_neg (by omega),
        if_neg (by omega), if_pos (by omega), List.cons_append,
        trail_ofNat _ (by omega) (by omega) (by omega)]
      simp only [bind, Except.bind, pure, Except.pure, List.nil_append]
      rw [show (v / 64 % 0x20 + 0xc0) % 32 * 64 + (v % 0x40 + 0x80) % 64 = v by omega, hc]
    case isFalse h2 =>
      split
      case isTrue h3 =>
        refine ⟨_, _, rfl, fun rest => ?_⟩
        rw [scalar, UInt8.toNat_ofNat_of_lt' (show _ < 256 by omega), if_neg (by omega),
          if_neg (by omega), if_neg (by omega), if_pos (by omega), List.cons_append,
          List.cons_append,
          trail_ofNat _ (by split <;> omega) (by split <;> omega) (by omega)]
        simp only [bind, Except.bind]
        rw [trail_ofNat _ (by omega) (by omega) (by omega)]
        simp only [pure, Except.pure, List.nil_append]
        rw [show ((v / 4096 % 0x10 + 0xe0) % 16 * 64 + (v / 64 % 0x40 + 0x80) % 64) * 64 +
          (v % 0x40 + 0x80) % 64 = v by omega, hc]
      case isFalse h3 =>
        refine ⟨_, _, rfl, fun rest => ?_⟩
        rw [scalar, UInt8.toNat_ofNat_of_lt' (show _ < 256 by omega), if_neg (by omega),
          if_neg (by omega), if_neg (by omega), if_neg (by omega), if_pos (by omega),
          List.cons_append, List.cons_append, List.cons_append,
          trail_ofNat _ (by split <;> omega) (by split <;> omega) (by omega)]
        simp only [bind, Except.bind]
        rw [trail_ofNat _ (by omega) (by omega) (by omega)]
        simp only []
        rw [trail_ofNat _ (by omega) (by omega) (by omega)]
        simp only [pure, Except.pure, List.nil_append]
        rw [show (((v / 262144 % 0x08 + 0xf0) % 8 * 64 + (v / 4096 % 0x40 + 0x80) % 64) * 64 +
          (v / 64 % 0x40 + 0x80) % 64) * 64 + (v % 0x40 + 0x80) % 64 = v by omega, hc]

theorem decodeFrom_flatMap (pos : Nat) (acc cs : List Char) :
    decodeFrom pos acc (cs.flatMap String.utf8EncodeChar) = .ok (acc.reverse ++ cs) := by
  induction cs generalizing pos acc with
  | nil => rw [List.flatMap_nil, decodeFrom, List.append_nil]
  | cons c cs ih =>
    obtain ⟨b, bs, hc, hscalar⟩ := scalar_utf8EncodeChar c
    rw [List.flatMap_cons, hc, List.cons_append, decodeFrom]
    split
    case h_1 h => rw [hscalar] at h; cases h
    case h_2 h =>
      rw [hscalar] at h
      cases h
      rw [ih, List.reverse_cons, List.append_assoc, List.singleton_append]

/-- A text is read back from its octets. -/
theorem decode_encode (s : String) : decode (encode s) = .ok s := by
  rw [decode, encode, decodeFrom_flatMap, List.reverse_nil, List.nil_append, Except.map,
    String.ofList_toList]

/-! ## Nothing else is read -/

theorem trail_eq_ok {seen lo hi : Nat} {bs rest : Octets} {x : Nat}
    (h : trail seen lo hi bs = .ok (x, rest)) :
    ∃ b, bs = b :: rest ∧ lo ≤ b.toNat ∧ b.toNat ≤ hi ∧ x = b.toNat % 64 := by
  cases bs with
  | nil => cases h
  | cons b bs =>
    rw [trail] at h
    split at h
    case isTrue hb =>
      cases h
      exact ⟨b, rfl, hb.1, hb.2, rfl⟩
    case isFalse => cases h

theorem toNat_val_ofNat {n : Nat} (h : n < 0xD800 ∨ 0xDFFF < n ∧ n < 0x110000) :
    (Char.ofNat n).val.toNat = n := by
  have hvalid : n.isValidChar := h
  rw [Char.ofNat, dif_pos hvalid]
  rfl

theorem eq_ofNat {n : Nat} {b : UInt8} (h : n = b.toNat) : b = UInt8.ofNat n := by
  rw [h, UInt8.ofNat_toNat]

/-- The octets that a character is read from are those that it is written as. -/
theorem scalar_eq_ok {b : UInt8} {bs rest : Octets} {c : Char}
    (h : scalar b bs = .ok (c, rest)) : b :: bs = String.utf8EncodeChar c ++ rest := by
  have hb := b.toNat_lt
  simp only [scalar, bind, Except.bind, pure, Except.pure, throw, throwThe,
    MonadExceptOf.throw] at h
  split at h
  case isTrue h1 =>
    cases h
    simp only [String.utf8EncodeChar, toNat_val_ofNat (n := b.toNat) (by omega)]
    rw [if_pos (by omega), ← eq_ofNat rfl]
    rfl
  split at h
  case isTrue => cases h
  split at h
  case isTrue h2 =>
    split at h
    case h_1 => cases h
    case h_2 hx =>
      cases h
      obtain ⟨x, rfl, hlo, hhi, hx⟩ := trail_eq_ok hx
      rw [hx]
      generalize hv : b.toNat % 32 * 64 + x.toNat % 64 = v
      simp only [String.utf8EncodeChar, toNat_val_ofNat (n := v) (by omega)]
      rw [if_neg (by omega), if_pos (by omega), ← eq_ofNat (b := b) (by omega),
        ← eq_ofNat (b := x) (by omega)]
      rfl
  split at h
  case isTrue h3 =>
    split at h
    case h_1 => cases h
    case h_2 hx =>
      split at h
      case h_1 => cases h
      case h_2 hy =>
        cases h
        obtain ⟨x, rfl, hxlo, hxhi, hx⟩ := trail_eq_ok hx
        obtain ⟨y, hmid, hylo, hyhi, hy⟩ := trail_eq_ok hy
        rw [hmid, hx, hy]
        generalize hv : (b.toNat % 16 * 64 + x.toNat % 64) * 64 + y.toNat % 64 = v
        have hrange : 0x7FF < v ∧ v ≤ 0xFFFF ∧ (v < 0xD800 ∨ 0xDFFF < v) ∧
            0x80 ≤ x.toNat ∧ x.toNat ≤ 0xBF := by
          split at hxlo <;> split at hxhi <;> omega
        simp only [String.utf8EncodeChar, toNat_val_ofNat (n := v) (by omega)]
        rw [if_neg (by omega), if_neg (by omega), if_pos (by omega),
          ← eq_ofNat (b := b) (by omega), ← eq_ofNat (b := x) (by omega),
          ← eq_ofNat (b := y) (by omega)]
        rfl
  split at h
  case isFalse => cases h
  case isTrue h4 =>
    split at h
    case h_1 => cases h
    case h_2 hx =>
      split at h
      case h_1 => cases h
      case h_2 hy =>
        split at h
        case h_1 => cases h
        case h_2 hz =>
          cases h
          obtain ⟨x, rfl, hxlo, hxhi, hx⟩ := trail_eq_ok hx
          obtain ⟨y, hmid, hylo, hyhi, hy⟩ := trail_eq_ok hy
          obtain ⟨z, hend, hzlo, hzhi, hz⟩ := trail_eq_ok hz
          rw [hmid, hend, hx, hy, hz]
          generalize hv : ((b.toNat % 8 * 64 + x.toNat % 64) * 64 + y.toNat % 64) * 64 +
            z.toNat % 64 = v
          have hrange : 0xFFFF < v ∧ v < 0x110000 ∧ 0x80 ≤ x.toNat ∧ x.toNat ≤ 0xBF := by
            split at hxlo <;> split at hxhi <;> omega
          simp only [String.utf8EncodeChar, toNat_val_ofNat (n := v) (by omega)]
          rw [if_neg (by omega), if_neg (by omega), if_neg (by omega),
            ← eq_ofNat (b := b) (by omega), ← eq_ofNat (b := x) (by omega),
            ← eq_ofNat (b := y) (by omega), ← eq_ofNat (b := z) (by omega)]
          rfl

theorem decodeFrom_eq_ok {pos : Nat} {acc cs : List Char} {bs : Octets}
    (h : decodeFrom pos acc bs = .ok cs) :
    cs.flatMap String.utf8EncodeChar = acc.reverse.flatMap String.utf8EncodeChar ++ bs := by
  induction hn : bs.length using Nat.strongRecOn generalizing pos acc bs with
  | ind n ih =>
    cases bs with
    | nil =>
      rw [decodeFrom] at h
      cases h
      rw [List.append_nil]
    | cons b bs =>
      rw [decodeFrom] at h
      split at h
      case h_1 => cases h
      case h_2 c rest hscalar =>
        have hshorter := scalar_length hscalar
        rw [ih rest.length (by rw [← hn, List.length_cons]; omega) h rfl, scalar_eq_ok hscalar,
          List.reverse_cons, List.flatMap_append, List.flatMap_singleton, List.append_assoc]

/-- A text is encoded as the octets it was read from. -/
theorem encode_of_decode {bs : Octets} {s : String} (h : decode bs = .ok s) : encode s = bs := by
  rw [decode] at h
  cases hcs : decodeFrom 0 [] bs with
  | error fault =>
    rw [hcs] at h
    cases h
  | ok cs =>
    rw [hcs] at h
    cases h
    rw [encode, String.toList_ofList, decodeFrom_eq_ok hcs]
    rfl

end MqttGateway.Utf8
