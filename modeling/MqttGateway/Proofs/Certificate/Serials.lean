import Mathlib.Data.List.TakeWhile
import MqttGateway.Certificate.Basic
import MqttGateway.Proofs.Octets
/-!
# Serial numbers

Serial numbers are the same number if they differ in nothing but the zeros in front. What is shown
of a serial number is the numeral of this number.
-/
namespace MqttGateway.Serial

def SameUpToZeros (a b : Octets) : Prop :=
  ∃ m n rest, a = List.replicate m 0 ++ rest ∧ b = List.replicate n 0 ++ rest

theorem eq_replicate_append_significant (serial : Octets) :
    ∃ n, serial = List.replicate n 0 ++ significant serial := by
  have hzeros : ∀ b ∈ serial.takeWhile (· == 0), b = 0 := by
    intro b hb
    simpa using List.mem_takeWhile_imp hb
  refine ⟨(serial.takeWhile (· == 0)).length, ?_⟩
  rw [← List.eq_replicate_of_mem hzeros]
  exact List.takeWhile_append_dropWhile.symm

theorem significant_replicate_append (n : Nat) (rest : Octets) :
    significant (List.replicate n 0 ++ rest) = significant rest := by
  induction n with
  | zero => rfl
  | succ n ih => exact ih

theorem agree_iff {a b : Octets} : agree a b = true ↔ SameUpToZeros a b := by
  rw [agree, beq_iff_eq]
  constructor
  · intro h
    obtain ⟨m, hm⟩ := eq_replicate_append_significant a
    obtain ⟨n, hn⟩ := eq_replicate_append_significant b
    exact ⟨m, n, significant a, hm, h ▸ hn⟩
  · rintro ⟨m, n, rest, rfl, rfl⟩
    rw [significant_replicate_append, significant_replicate_append]

/-! ## The number -/

theorem toNat_significant (serial : Octets) :
    Octets.toNat (significant serial) = Octets.toNat serial := by
  obtain ⟨n, hn⟩ := eq_replicate_append_significant serial
  conv_rhs => rw [hn]
  rw [Octets.toNat_replicate_append]

theorem head_significant_ne_zero {serial : Octets} (h : significant serial ≠ []) :
    (significant serial).head h ≠ 0 := by
  simpa [significant] using List.head_dropWhile_not (· == 0) h

/-- Without zeros in front, octets are the digits of their number. -/
theorem digits_toNat (serial : Octets) :
    Nat.digits 256 (Octets.toNat serial) = ((significant serial).map UInt8.toNat).reverse := by
  rw [← toNat_significant, Octets.toNat_eq_ofDigits]
  refine Nat.digits_ofDigits 256 (by decide) _ ?_ ?_
  · intro d hd
    obtain ⟨b, -, rfl⟩ := List.mem_map.mp (List.mem_reverse.mp hd)
    exact b.toNat_lt
  · intro hne
    have hsome : significant serial ≠ [] := by simpa using hne
    rw [List.getLast_reverse, List.head_map]
    exact fun hzero => head_significant_ne_zero hsome (UInt8.toNat_inj.mp hzero)

theorem agree_iff_toNat_eq {a b : Octets} : agree a b = true ↔ Octets.toNat a = Octets.toNat b := by
  have hinjective : Function.Injective UInt8.toNat := fun _ _ => UInt8.toNat_inj.mp
  rw [agree, beq_iff_eq, ← Nat.digits_inj_iff (b := 256), digits_toNat, digits_toNat,
    List.reverse_inj, (List.map_injective_iff.mpr hinjective).eq_iff]

theorem hex_eq_toDigits (serial : Octets) :
    hex serial = String.ofList (Nat.toDigits 16 (Octets.toNat serial)) := by
  rw [hex, Octets.dropWhile_hex, toNat_significant, Octets.numeral]
  by_cases hzero : Octets.toNat serial = 0
  · rw [if_pos hzero, hzero]
    rfl
  · have hne : Nat.toDigits 16 (Octets.toNat serial) ≠ [] := Nat.toDigits_ne_nil
    obtain ⟨d, ds, hdigits⟩ := List.exists_cons_of_ne_nil hne
    rw [if_neg hzero, hdigits]

theorem hex_eq_iff_toNat_eq {a b : Octets} : hex a = hex b ↔ Octets.toNat a = Octets.toNat b := by
  rw [hex_eq_toDigits, hex_eq_toDigits, String.ofList_inj, Octets.toDigits_injective.eq_iff]

theorem agree_eq_decide_hex (a b : Octets) : agree a b = decide (hex a = hex b) := by
  rw [Bool.eq_iff_iff, decide_eq_true_iff, agree_iff_toNat_eq, hex_eq_iff_toNat_eq]

end MqttGateway.Serial
