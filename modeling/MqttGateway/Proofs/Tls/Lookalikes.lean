import MqttGateway.Proofs.Revocation.Verifying
import MqttGateway.Proofs.Tls.Chain
/-!
# Certificates that look like an issuer

Main statement: a chain is led up by names, so it is a chain of signatures exactly if none of the
certificates that it passes through has a look-alike of its issuer in front of the issuer.
-/
namespace MqttGateway

def Certificate.IsSignedBy (c issuer : Certificate) : Prop :=
  c.verifySignedBy issuer = .ok ()

instance : DecidableRel Certificate.IsSignedBy := fun c issuer =>
  decidable_of_iff ((c.verifySignedBy issuer).isOk = true) isOk_iff

namespace Tls

variable {presented authorities : List Certificate} {c d : Certificate}

/-- The second certificate comes first among all that are named as issuer of the first, which it did
not sign. -/
structure Shadows (presented authorities : List Certificate) (c d : Certificate) : Prop where
  named : d.der ≠ c.der ∧ c.isIssuedBy d = true
  first : ∃ before after, presented ++ authorities = before ++ d :: after ∧
    ∀ e ∈ before, e.der = c.der ∨ c.isIssuedBy e = false
  unsigned : ¬ c.IsSignedBy d

theorem issuer?_eq_find? : issuer? presented authorities c =
    (presented ++ authorities).find? fun d => d.der != c.der && c.isIssuedBy d := by
  rw [List.find?_append]
  rfl

theorem follows_iff : Follows presented authorities c d ↔
    (d.der ≠ c.der ∧ c.isIssuedBy d = true) ∧
      ∃ before after, presented ++ authorities = before ++ d :: after ∧
        ∀ e ∈ before, e.der = c.der ∨ c.isIssuedBy e = false := by
  rw [Follows, issuer?_eq_find?, List.find?_eq_some_iff_append]
  simp

theorem shadows_iff : Shadows presented authorities c d ↔
    Follows presented authorities c d ∧ ¬ c.IsSignedBy d := by
  rw [follows_iff]
  constructor
  · intro h
    exact ⟨⟨h.named, h.first⟩, h.unsigned⟩
  · rintro ⟨⟨hnamed, hfirst⟩, hunsigned⟩
    exact ⟨hnamed, hfirst, hunsigned⟩

def IsNext (chain : List Certificate) (c d : Certificate) : Prop :=
  ∃ i, chain[i]? = some c ∧ chain[i + 1]? = some d

theorem isChain_iff_isNext {R : Certificate → Certificate → Prop} {cs : List Certificate} :
    cs.IsChain R ↔ ∀ c d, IsNext cs c d → R c d := by
  rw [List.isChain_iff_getElem]
  constructor
  · rintro h c d ⟨i, hc, hd⟩
    obtain ⟨hi, rfl⟩ := List.getElem?_eq_some_iff.mp hd
    obtain ⟨_, rfl⟩ := List.getElem?_eq_some_iff.mp hc
    exact h i hi
  · intro h i hi
    exact h _ _ ⟨i, List.getElem?_eq_getElem _, List.getElem?_eq_getElem hi⟩

theorem isSignedBy_or_shadows (h : IsNext (chain presented authorities) c d) :
    c.IsSignedBy d ∨ Shadows presented authorities c d := by
  rw [shadows_iff]
  have hfollows := isChain_iff_isNext.mp (chain_isChain presented authorities) c d h
  by_cases hsigned : c.IsSignedBy d
  · exact .inl hsigned
  · exact .inr ⟨hfollows, hsigned⟩

theorem isChain_isSignedBy_iff : (chain presented authorities).IsChain Certificate.IsSignedBy ↔
    ∀ c d, IsNext (chain presented authorities) c d → ¬ Shadows presented authorities c d := by
  rw [isChain_iff_isNext]
  constructor
  · intro h c d hnext hshadows
    exact hshadows.unsigned (h c d hnext)
  · intro h c d hnext
    exact (isSignedBy_or_shadows hnext).resolve_right (h c d hnext)

/-- Each certificate is checked against itself if it is the last, and else against its signer or
against a look-alike. -/
theorem checked_against {i : Nat} {issuer : Option Certificate}
    (h : (Verifier.pairChain (chain presented authorities))[i]? = some (c, issuer)) :
    (i + 1 = (chain presented authorities).length ∧ issuer = some c) ∨
      ∃ d, issuer = some d ∧ (c.IsSignedBy d ∨ Shadows presented authorities c d) := by
  rw [Verifier.getElem?_pairChain] at h
  obtain ⟨c', hc, heq⟩ := Option.map_eq_some_iff.mp h
  obtain ⟨rfl, rfl⟩ := Prod.mk.inj heq
  obtain ⟨hi, -⟩ := List.getElem?_eq_some_iff.mp hc
  cases hnext : (chain presented authorities)[i + 1]? with
  | none =>
    have hlast := List.getElem?_eq_none_iff.mp hnext
    exact .inl ⟨by omega, rfl⟩
  | some d => exact .inr ⟨d, rfl, isSignedBy_or_shadows ⟨i, hc, hnext⟩⟩

/-- Chains that go on in the same way from the same start differ only in where they end. -/
theorem isPrefix_or_isPrefix {start : Certificate} {as bs : List Certificate}
    (ha : (start :: as).IsChain (Follows presented authorities))
    (hb : (start :: bs).IsChain (Follows presented authorities)) : as <+: bs ∨ bs <+: as := by
  induction as generalizing start bs with
  | nil => exact .inl List.nil_prefix
  | cons a as ih =>
    cases bs with
    | nil => exact .inr List.nil_prefix
    | cons b bs =>
      obtain ⟨hfollows, ha⟩ := List.isChain_cons_cons.mp ha
      obtain ⟨hfollows', hb⟩ := List.isChain_cons_cons.mp hb
      obtain rfl : a = b := Option.some.inj (hfollows.symm.trans hfollows')
      simp only [List.cons_prefix_cons, true_and]
      exact ih ha hb

/-- The chain is one of signatures exactly if no look-alike comes before an issuer. Where each
certificate of a path from the leaf comes first among those named, the chain keeps to the path. -/
theorem signed_iff_unshadowed (presented authorities : List Certificate) :
    ((chain presented authorities).IsChain Certificate.IsSignedBy ↔
      ∀ c d, IsNext (chain presented authorities) c d → ¬ Shadows presented authorities c d) ∧
    (∀ (i : Nat) c issuer,
      (Verifier.pairChain (chain presented authorities))[i]? = some (c, issuer) →
        (i + 1 = (chain presented authorities).length ∧ issuer = some c) ∨
          ∃ d, issuer = some d ∧ (c.IsSignedBy d ∨ Shadows presented authorities c d)) ∧
    ∀ path : List Certificate, path.head? = presented.head? →
      path.IsChain (Follows presented authorities) →
        chain presented authorities <+: path ∨ path <+: chain presented authorities := by
  refine ⟨isChain_isSignedBy_iff, fun i c issuer h => checked_against h, fun path hhead hpath => ?_⟩
  have hchain := chain_isChain presented authorities
  have hsame := (head?_chain presented authorities).trans hhead.symm
  cases path with
  | nil => exact .inr List.nil_prefix
  | cons leaf more =>
    obtain ⟨more', heq⟩ := List.head?_eq_some_iff.mp hsame
    rw [heq] at hchain ⊢
    simp only [List.cons_prefix_cons, true_and]
    exact isPrefix_or_isPrefix hchain hpath

/-! ## A look-alike -/

def plantDer : Octets :=
  .ofNat 40 0x308201213081c7a003020102020102300a06082a8648ce3d040302300f310d300b06035504030c04 ++
    .ofNat 40 0x726f6f74301e170d3230303130313030303030305a170d3439313233313233353935395a3010310e ++
    .ofNat 40 0x300c06035504030c05706c616e743059301306072a8648ce3d020106082a8648ce3d030107034200 ++
    .ofNat 40 0x04b0d2f89372c56874c2d5490f01e33962ef3fda8e9a30e7b8607bae10735dae9ccb8b9b5fd7f53c ++
    .ofNat 40 0xf8de0cd522c6d1a214f0268a038a7dad94019b97f6fb95b7dda3133011300f0603551d130101ff04 ++
    .ofNat 40 0x0530030101ff300a06082a8648ce3d0403020349003046022100a09743d099c481a5c469af384f41 ++
    .ofNat 40 0x5fe3163758982e1d8db9eb30047add56bb63022100a178f0fbffd9d5547881f9d0508c878b496bc1 ++
    .ofNat 13 0x01ed9d6afaf69d62889904fd2a

/-- A certificate with the same names, for another key. -/
def lookalikeDer : Octets :=
  .ofNat 40 0x3081e0308193a003020102020103300506032b6570300f310d300b06035504030c04726f6f74301e ++
    .ofNat 40 0x170d3230303130313030303030305a170d3439313233313233353935395a3010310e300c06035504 ++
    .ofNat 40 0x030c05706c616e74302a300506032b6570032100fd1bac7b38736fc1781931b5e392e9a401a4da19 ++
    .ofNat 40 0x6f0ea2df96daa9a0c9927b8ca3133011300f0603551d130101ff040530030101ff300506032b6570 ++
    .ofNat 40 0x0341007cf1c4f8402e9c590b814106483d6a5b77151cec6f3238f18b2b5ff6883becc177de356d06 ++
    .ofNat 27 0x67a650d9dfbc636728a9baca32ab9dd6a041b4f14a8249a2f0020a

def pumpDer : Octets :=
  .ofNat 40 0x3082010c3081b2a003020102020110300a06082a8648ce3d0403023010310e300c06035504030c05 ++
    .ofNat 40 0x706c616e74301e170d3230303130313030303030305a170d3439313233313233353935395a300f31 ++
    .ofNat 40 0x0d300b06035504030c0470756d703059301306072a8648ce3d020106082a8648ce3d030107034200 ++
    .ofNat 40 0x04e9f1c4b7d23482da63f9eb64d56aaff30c402d8b067727024e11ef391cb6850811a32eeccf0b7d ++
    .ofNat 40 0xc63e3b77b1e8b065e6d4d2c6f5570dda0c675bbf8d397e7e1c300a06082a8648ce3d040302034900 ++
    .ofNat 40 0x3046022100d0667d1517fbd6389fe8606e89696ba7976ac5b6be992b7f41d88bdadaa2b1dd022100 ++
    .ofNat 32 0xe7da82b001435501a5ebce899c2efb39db2605ae5b21aa23a83072beb0f77e4f

def plant : Certificate := (Certificate.ofDer plantDer).toOption.get (by decide +kernel)
def lookalike : Certificate := (Certificate.ofDer lookalikeDer).toOption.get (by decide +kernel)
def pump : Certificate := (Certificate.ofDer pumpDer).toOption.get (by decide +kernel)

/-- The client is trusted in 2030 and was signed by the authority, but with the look-alike among the
presented certificates its chain is not one of signatures. -/
theorem lookalike_enters_chain :
    isTrusted (Anchor.ofDer? plantDer).toList 1893456000 [pumpDer, lookalikeDer] = true ∧
      [pump, plant].IsChain Certificate.IsSignedBy ∧
      ¬ (chain [pump, lookalike] [plant]).IsChain Certificate.IsSignedBy := by
  decide +kernel

end Tls
end MqttGateway
