import MqttGateway.Proofs.Der.Elements
import MqttGateway.Proofs.Octets
/-!
# Reading back written elements

An element that is written is read as it was, and what follows it is left. Its length takes one
octet, or one for their number and as many as the number has digits to the base 256.
-/
namespace MqttGateway.Der

variable {α : Type} {inner : Reader α} {a : α} {tag : UInt8} {content : Octets}

/-! ## Lengths -/

def writeLength (n : Nat) : Octets :=
  if n < 0x80 then [UInt8.ofNat n]
  else UInt8.ofNat (0x80 + (Nat.log2 n / 8 + 1)) :: Octets.ofNat (Nat.log2 n / 8 + 1) n

theorem write_eq (tag : UInt8) (content : Octets) :
    write tag content = tag :: writeLength content.length ++ content := by
  rw [write, writeLength]
  split <;> rfl

/-- A number has no more digits to the base 256 than its length is written in. -/
theorem lt_pow_width (n : Nat) : n < Nat.pow 256 (Nat.log2 n / 8 + 1) := by
  have hbits : n < 2 ^ (Nat.log2 n + 1) := Nat.lt_log2_self
  have hwidth : 2 ^ (Nat.log2 n + 1) ≤ 2 ^ (8 * (Nat.log2 n / 8 + 1)) :=
    Nat.pow_le_pow_right (by decide) (by omega)
  have hbase : 2 ^ (8 * (Nat.log2 n / 8 + 1)) = Nat.pow 256 (Nat.log2 n / 8 + 1) :=
    Nat.pow_mul 2 8 _
  omega

theorem width_le {n : Nat} (hn : n < Nat.pow 2 64) : Nat.log2 n / 8 + 1 ≤ 8 := by
  by_cases hzero : n = 0
  · subst hzero
    decide
  · have hlog : Nat.log2 n < 64 := (Nat.log2_lt hzero).mpr hn
    omega

theorem length_writeLength_le {n : Nat} (hn : n < Nat.pow 2 64) : (writeLength n).length ≤ 9 := by
  have hwidth := width_le hn
  rw [writeLength]
  split
  · exact Nat.le_of_ble_eq_true rfl
  · rw [List.length_cons, Octets.length_ofNat]
    omega

theorem octets_append (bs rest : Octets) : octets bs.length (bs ++ rest) = .ok (bs, rest) := by
  rw [octets, if_neg (by rw [List.length_append]; omega), List.take_left, List.drop_left]

/-- A length is read as it was, and nothing of what follows it. -/
theorem length_writeLength {n : Nat} (hn : n < Nat.pow 2 64) (rest : Octets) :
    length (writeLength n ++ rest) = .ok (n, rest) := by
  rw [writeLength]
  split
  case isTrue hshort =>
    refine reads_bind_iff.mpr ⟨UInt8.ofNat n, rest, rfl, ?_⟩
    have hvalue : (UInt8.ofNat n).toNat = n :=
      UInt8.toNat_ofNat_of_lt' (show _ < 256 by omega)
    have hlt : UInt8.ofNat n < 0x80 := by
      rw [UInt8.lt_iff_toNat_lt, hvalue]
      exact hshort
    rw [if_pos hlt, hvalue]
    rfl
  case isFalse hlong =>
    have hwidth := width_le hn
    have hdigits := lt_pow_width n
    have hpositive : 0 < Nat.log2 n / 8 + 1 := Nat.succ_pos _
    generalize Nat.log2 n / 8 + 1 = width at hwidth hdigits hpositive
    refine reads_bind_iff.mpr ⟨UInt8.ofNat (0x80 + width), _, rfl, ?_⟩
    have hvalue : (UInt8.ofNat (0x80 + width)).toNat = 0x80 + width :=
      UInt8.toNat_ofNat_of_lt' (show _ < 256 by omega)
    -- eight digits at most, so the first octet is none of those with a meaning of their own
    have hlt : ¬ UInt8.ofNat (0x80 + width) < 0x80 := by
      rw [UInt8.lt_iff_toNat_lt, hvalue]
      exact Nat.not_lt.mpr (Nat.le_add_right 128 width)
    have hdefinite : ¬ (UInt8.ofNat (0x80 + width) = 0x80 ∨ UInt8.ofNat (0x80 + width) = 0xFF) := by
      rw [← UInt8.toNat_inj, ← UInt8.toNat_inj, hvalue]
      simp only [UInt8.reduceToNat]
      omega
    have hcount : (UInt8.ofNat (0x80 + width)).toNat - 0x80 = (Octets.ofNat width n).length := by
      rw [hvalue, Octets.length_ofNat, Nat.add_sub_cancel_left]
    rw [if_neg hlt, if_neg hdefinite, hcount]
    refine reads_bind_iff.mpr ⟨_, rest, octets_append _ rest, ?_⟩
    rw [Octets.toNat_ofNat hdigits, if_pos hn]
    rfl

/-! ## Elements -/

theorem length_write_le (tag : UInt8) (content : Octets)
    (hlength : content.length < Nat.pow 2 64) :
    (write tag content).length ≤ content.length + 10 := by
  have hheader := length_writeLength_le hlength
  rw [write_eq, List.length_append, List.length_cons]
  omega

def headerOf (tag : UInt8) (n : Nat) : Header :=
  ⟨classOf tag, tag &&& 0x20 ≠ 0, tag.toNat % 32, n⟩

theorem header_writeLength {n : Nat} (htag : tag.toNat % 32 ≠ 31) (hn : n < Nat.pow 2 64)
    (rest : Octets) : header (tag :: (writeLength n ++ rest)) = .ok (headerOf tag n, rest) := by
  refine reads_bind_iff.mpr ⟨tag, _, rfl, ?_⟩
  dsimp only
  rw [if_neg htag]
  refine reads_bind_iff.mpr ⟨tag.toNat % 32, _, rfl, ?_⟩
  exact reads_bind_iff.mpr ⟨n, rest, length_writeLength hn rest, rfl⟩

/-- What is written of a content is one element with this content. -/
theorem element_write (htag : tag.toNat % 32 ≠ 31) (hlength : content.length < Nat.pow 2 64)
    (rest : Octets) :
    element (write tag content ++ rest) = .ok (⟨headerOf tag content.length, content⟩, rest) := by
  rw [write_eq, List.cons_append, List.cons_append, List.append_assoc]
  refine reads_bind_iff.mpr ⟨_, _, header_writeLength htag hlength _, ?_⟩
  exact reads_bind_iff.mpr ⟨content, rest, octets_append content rest, rfl⟩

/-- The tags of elements that hold no others are the small numbers themselves. -/
theorem headerOf_leaf {number : Nat} (hleaf : number < 31) (n : Nat) :
    headerOf (UInt8.ofNat number) n = ⟨.universal, false, number, n⟩ := by
  have hfields : ∀ k < 31, classOf (UInt8.ofNat k) = .universal ∧
      decide (UInt8.ofNat k &&& 0x20 ≠ 0) = false ∧ (UInt8.ofNat k).toNat % 32 = k := by decide
  obtain ⟨hclass, hconstructed, htag⟩ := hfields number hleaf
  rw [headerOf, hclass, hconstructed, htag]

theorem element_write_leaf {number : Nat} (hleaf : number < 31)
    (hlength : content.length < Nat.pow 2 64) (rest : Octets) :
    element (write (UInt8.ofNat number) content ++ rest) =
      .ok (⟨⟨.universal, false, number, content.length⟩, content⟩, rest) := by
  have htag : (UInt8.ofNat number).toNat % 32 = number :=
    congrArg Header.tag (headerOf_leaf hleaf 0)
  rw [element_write (by omega) hlength, headerOf_leaf hleaf]

/-! ## Readers of what is written -/

def leaf (tag : Nat) : Reader Octets := do
  let e ← element
  require (e.header.tagClass == .universal && !e.header.constructed && e.header.tag == tag)
  return e.content

def exactly (inner : Reader α) : Reader α := do
  let e ← element
  require (e.header.tagClass == .universal && e.header.constructed &&
    e.header.tag == Tag.sequence)
  match inner e.content with
  | .ok (a, []) => return a
  | .ok _ => refuse
  | .error fault => throw fault

/-- Whoever asks for an element of a certain kind gets the content of a leaf of this kind. -/
theorem wanted_write {wanted : Element → Bool} {number : Nat} (hleaf : number < 31)
    (hlength : content.length < Nat.pow 2 64)
    (hwanted : wanted ⟨⟨.universal, false, number, content.length⟩, content⟩ = true)
    (rest : Octets) :
    (do
      let e ← element
      require (wanted e)
      return e.content : Reader Octets) (write (UInt8.ofNat number) content ++ rest) =
      .ok (content, rest) := by
  refine reads_bind_iff.mpr ⟨_, _, element_write_leaf hleaf hlength rest, ?_⟩
  exact reads_bind_iff.mpr ⟨(), rest, reads_require_iff.mpr ⟨hwanted, rfl⟩, rfl⟩

theorem leaf_write {number : Nat} (hleaf : number < 31)
    (hlength : content.length < Nat.pow 2 64) (rest : Octets) :
    leaf number (write (UInt8.ofNat number) content ++ rest) = .ok (content, rest) :=
  wanted_write hleaf hlength (by simp) rest

theorem universal_write {number : Nat} (hleaf : number < 31)
    (hlength : content.length < Nat.pow 2 64) (rest : Octets) :
    Ocsp.CertId.universal number (write (UInt8.ofNat number) content ++ rest) =
      .ok (content, rest) :=
  wanted_write hleaf hlength (by simp) rest

theorem oid_write {number : Nat} (hleaf : number < 31)
    (hlength : content.length < Nat.pow 2 64) (rest : Octets) :
    oid (write (UInt8.ofNat number) content ++ rest) = .ok (content, rest) :=
  wanted_write hleaf hlength rfl rest

theorem exactly_write (hinner : inner content = .ok (a, []))
    (hlength : content.length < Nat.pow 2 64) (rest : Octets) :
    exactly inner (write 0x30 content ++ rest) = .ok (a, rest) := by
  refine reads_bind_iff.mpr ⟨_, _, element_write (by decide) hlength rest, ?_⟩
  refine reads_bind_iff.mpr ⟨(), rest, rfl, ?_⟩
  simp only [hinner]
  rfl

theorem exactly_write_whole (hinner : inner content = .ok (a, []))
    (hlength : content.length < Nat.pow 2 64) :
    exactly inner (write 0x30 content) = .ok (a, []) := by
  rw [← List.append_nil (write 0x30 content)]
  exact exactly_write hinner hlength []

/-- A sequence that is written begins with its content. -/
theorem beginsSequence_write (hlength : content.length < Nat.pow 2 64) (rest : Octets) :
    BeginsSequence (write 0x30 content ++ rest) content :=
  ⟨headerOf 0x30 content.length, rest, element_write (by decide) hlength rest, rfl, rfl⟩

/-- What a record is read from is all that counts. -/
theorem BeginsSequence.read_record_iff {bs : Octets} (h : BeginsSequence bs content) :
    read (Ocsp.CertId.record inner) bs = .ok a ↔ read inner content = .ok a := by
  rw [Der.read_record_iff]
  constructor
  · rintro ⟨_, ⟨_, _, helement, -⟩, hread⟩
    obtain ⟨_, _, hcontent, -⟩ := h
    cases helement.symm.trans hcontent
    exact hread
  · exact fun hread => ⟨content, h, hread⟩

theorem record_write (hinner : read inner content = .ok a) (hlength : content.length < Nat.pow 2 64)
    (rest : Octets) : Ocsp.CertId.record inner (write 0x30 content ++ rest) = .ok (a, rest) := by
  have htagged : tagged Tag.sequence (write 0x30 content ++ rest) =
      .ok (⟨headerOf 0x30 content.length, content⟩, rest) :=
    reads_bind_iff.mpr ⟨_, _, element_write (by decide) hlength rest,
      reads_bind_iff.mpr ⟨(), rest, rfl, rfl⟩⟩
  refine reads_bind_iff.mpr ⟨_, _, htagged, reads_bind_iff.mpr ⟨(), rest, rfl, ?_⟩⟩
  exact reads_within_iff.mpr ⟨hinner, rfl⟩

/-- One item that takes all octets is all there is. -/
theorem all_singleton {bs : Octets} (h : inner bs = .ok (a, [])) (hsome : bs ≠ [])
    (hnone : ∃ fault, inner [] = .error fault) : all inner bs = .ok ([a], []) := by
  obtain ⟨fault, hnone⟩ := hnone
  have hempty : manyFrom inner [] = ([], []) := by
    rw [manyFrom, hnone]
  have hmany : many inner bs = .ok ([a], []) := by
    rw [many, manyFrom, h]
    simp only [List.length_nil, List.length_pos_iff.mpr hsome, if_true, hempty]
  exact reads_bind_iff.mpr ⟨[a], [], hmany, rfl⟩

end MqttGateway.Der
