import Mathlib.Data.Nat.Digits.Lemmas
import MqttGateway.Octets
/-!
# Octets and numerals

Octets are the digits of a number to the base 256, most significant first. Their hexadecimal text is
the numeral of that number, up to zeros in front.
-/
namespace MqttGateway.Octets

/-! ## Numbers -/

theorem toNat_append_singleton (bs : Octets) (b : UInt8) :
    toNat (bs ++ [b]) = toNat bs * 256 + b.toNat := by
  rw [toNat, List.foldl_append]
  rfl

theorem toNat_eq_ofDigits (bs : Octets) :
    toNat bs = Nat.ofDigits 256 (bs.map UInt8.toNat).reverse := by
  induction bs using List.reverseRecOn with
  | nil => rfl
  | append_singleton bs b ih =>
    rw [toNat_append_singleton, ih, List.map_append, List.map_singleton, List.reverse_append,
      List.reverse_singleton, List.singleton_append, Nat.ofDigits_cons]
    omega

theorem toNat_replicate_append (n : Nat) (rest : Octets) :
    toNat (List.replicate n 0 ++ rest) = toNat rest := by
  induction n with
  | zero => rfl
  | succ n ih => exact ih

theorem length_ofNat (width n : Nat) : (ofNat width n).length = width := by
  rw [ofNat, List.length_map, List.length_range]

theorem ofNat_succ (width n : Nat) :
    ofNat (width + 1) n = ofNat width (n / 256) ++ [UInt8.ofNat n] := by
  rw [ofNat, ofNat, List.range_succ, List.map_append, List.map_singleton]
  congr 1
  · refine List.map_congr_left fun i hi => ?_
    have hi : i < width := List.mem_range.mp hi
    have hplace : width + 1 - 1 - i = (width - 1 - i) + 1 := by omega
    rw [hplace, Nat.div_div_eq_div_mul, Nat.mul_comm]
    rfl
  · simp

/-- A number that fits is read back from its octets. -/
theorem toNat_ofNat {width n : Nat} (h : n < Nat.pow 256 width) : toNat (ofNat width n) = n := by
  induction width generalizing n with
  | zero =>
    have hone : n < 1 := h
    have hzero : n = 0 := by omega
    rw [hzero]
    rfl
  | succ width ih =>
    have hdiv : n / 256 < Nat.pow 256 width := Nat.div_lt_of_lt_mul (Nat.mul_comm _ 256 ▸ h)
    rw [ofNat_succ, toNat_append_singleton, ih hdiv, UInt8.toNat_ofNat']
    omega

/-! ## Hexadecimal numerals -/

theorem hexDigit_eq_digitChar : ∀ d < 16, hexDigit d = Nat.digitChar d := by
  decide

theorem digitChar_inj : ∀ d < 16, ∀ e < 16, Nat.digitChar d = Nat.digitChar e → d = e := by
  decide

theorem toDigits_ne_singleton {n : Nat} (h : 16 ≤ n) (c : Char) : Nat.toDigits 16 n ≠ [c] := by
  rw [Nat.toDigits_of_base_le (by decide) h]
  intro hsame
  obtain ⟨hnil, -⟩ | ⟨-, hnil⟩ := List.append_eq_singleton_iff.mp hsame
  · exact Nat.toDigits_ne_nil hnil
  · cases hnil

/-- Different numbers have different numerals. -/
theorem toDigits_injective : Function.Injective (Nat.toDigits 16) := by
  intro m
  induction m using Nat.strongRecOn with
  | ind m ih =>
    intro n h
    rcases Nat.lt_or_ge m 16 with hm | hm
    · rw [Nat.toDigits_of_lt_base hm] at h
      rcases Nat.lt_or_ge n 16 with hn | hn
      · rw [Nat.toDigits_of_lt_base hn] at h
        exact digitChar_inj m hm n hn (List.singleton_inj.mp h)
      · exact absurd h.symm (toDigits_ne_singleton hn _)
    · rcases Nat.lt_or_ge n 16 with hn | hn
      · rw [Nat.toDigits_of_lt_base hn] at h
        exact absurd h (toDigits_ne_singleton hm _)
      · rw [Nat.toDigits_of_base_le (by decide) hm, Nat.toDigits_of_base_le (by decide) hn] at h
        obtain ⟨hinit, hlast⟩ := List.append_inj' h rfl
        have hdiv : m / 16 = n / 16 := ih (m / 16) (by omega) hinit
        have hmod : m % 16 = n % 16 := digitChar_inj _ (Nat.mod_lt m (by decide)) _
          (Nat.mod_lt n (by decide)) (List.singleton_inj.mp hlast)
        omega

def numeral (n : Nat) : List Char :=
  if n = 0 then [] else Nat.toDigits 16 n

theorem isEmpty_numeral (n : Nat) : (numeral n).isEmpty = decide (n = 0) := by
  rw [numeral]
  split
  case isTrue h => simp [h]
  case isFalse h => simp [h, Nat.toDigits_ne_nil]

/-- A digit behind the others makes up the next numeral. -/
theorem dropWhile_append_digit {cs : List Char} {n d : Nat}
    (h : cs.dropWhile (· == '0') = numeral n) (hd : d < 16) :
    (cs ++ [hexDigit d]).dropWhile (· == '0') = numeral (16 * n + d) := by
  rw [hexDigit_eq_digitChar d hd, List.dropWhile_append, h, isEmpty_numeral]
  by_cases hn : n = 0
  · subst hn
    rw [decide_eq_true rfl, if_pos rfl, Nat.mul_zero, Nat.zero_add]
    by_cases hzero : d = 0
    · subst hzero
      rfl
    · rw [numeral, if_neg hzero, Nat.toDigits_of_lt_base hd, List.dropWhile_cons_of_neg]
      simpa using hzero
  · have hnext : 16 * n + d ≠ 0 := by omega
    rw [decide_eq_false hn, if_neg Bool.false_ne_true, numeral, if_neg hn, numeral, if_neg hnext,
      ← Nat.toDigits_append_toDigits (by decide) (Nat.pos_of_ne_zero hn) hd,
      Nat.toDigits_of_lt_base hd]

theorem dropWhile_hex (bs : Octets) :
    (hex bs).toList.dropWhile (· == '0') = numeral (toNat bs) := by
  rw [hex, String.toList_ofList]
  induction bs using List.reverseRecOn with
  | nil => rfl
  | append_singleton bs b ih =>
    have hb : b.toNat < 256 := b.toNat_lt
    have hhigh := dropWhile_append_digit ih (d := b.toNat / 16) (by omega)
    have hlow := dropWhile_append_digit hhigh (d := b.toNat % 16) (by omega)
    have hvalue : 16 * (16 * toNat bs + b.toNat / 16) + b.toNat % 16 = toNat (bs ++ [b]) := by
      rw [toNat_append_singleton]
      omega
    rw [hvalue, List.append_assoc] at hlow
    rw [List.flatMap_append]
    exact hlow

end MqttGateway.Octets
