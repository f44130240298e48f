import Mathlib.Data.List.Forall2
import MqttGateway.Proofs.Gateway.Setup
import MqttGateway.Proofs.Revocation.Consulting
import MqttGateway.Proofs.Revocation.Lists
import MqttGateway.Proofs.Tls.Lookalikes
/-!
# Chains and presented certificates

The issuer of a certificate is the next in a chain, but it has to be found among certificates that
were only presented. A root stands for its own issuer in either case. Main statement: where the
certificates are in order, it does not matter which of the two ways they come.
-/
namespace MqttGateway

/-- Certificates from a leaf up to a root, as they were read. Each was issued by the next and by no
other but perhaps itself. -/
structure Certificate.IsOrdered (cs : List Certificate) : Prop where
  nodup : cs.Nodup
  read : ∀ c ∈ cs, ofDer c.der = .ok c
  ends : ∃ root, cs.getLast? = some root ∧ root.isRootCa = true
  issued : cs.IsChain fun c d =>
    c.isIssuedBy d = true ∧ ∀ e ∈ cs, c.isIssuedBy e = true → e = c ∨ e = d

variable {σ : Type} {env : Surroundings σ} {cs : List Certificate}

/-- The same check on the same certificate, and no one has to be asked to come to the same issuer. -/
structure Verifier.Call.Agrees (env : Surroundings σ) (call call' : Verifier.Call σ) : Prop where
  check : call.1 = call'.1
  certificate : call.2.1 = call'.2.1
  issuer : ∃ issuer, Inquiry.resolveIssuer env call.2.1 call.2.2 = pure issuer ∧
    Inquiry.resolveIssuer env call'.2.1 call'.2.2 = pure issuer

/-! ## Issuers of certificates in order -/

namespace Certificate.IsOrdered

variable {i : Nat} {c d : Certificate}

theorem ne_nil (h : IsOrdered cs) : cs ≠ [] := by
  obtain ⟨root, hlast, -⟩ := h.ends
  rintro rfl
  cases hlast

theorem findIssuer?_eq (h : IsOrdered cs) (hnext : Tls.IsNext cs c d) :
    c.findIssuer? cs = some d := by
  obtain ⟨hissued, honly⟩ := Tls.isChain_iff_isNext.mp h.issued c d hnext
  obtain ⟨i, hc, hd⟩ := hnext
  have hother : d.der ≠ c.der := by
    intro hsame
    have hread := h.read d (List.mem_of_getElem? hd)
    rw [hsame, h.read c (List.mem_of_getElem? hc)] at hread
    obtain rfl := Except.ok.inj hread
    have hindex := (List.getElem?_inj (List.getElem?_eq_some_iff.mp hc).1 h.nodup).mp
      (hc.trans hd.symm)
    omega
  cases hfound : c.findIssuer? cs with
  | none =>
    have hnone := List.find?_eq_none.mp hfound d (List.mem_of_getElem? hd)
    simp [hother, hissued] at hnone
  | some e =>
    have hnamed := List.find?_some hfound
    rw [Bool.and_eq_true, bne_iff_ne] at hnamed
    obtain rfl | rfl := honly e (List.mem_of_find?_eq_some hfound) hnamed.2
    · exact absurd rfl hnamed.1
    · rfl

/-- Only the root has none after it. -/
theorem isRootCa_or_isNext (h : IsOrdered cs) (hc : cs[i]? = some c) :
    c.isRootCa = true ∨ ∃ d, cs[i + 1]? = some d ∧ Tls.IsNext cs c d := by
  cases hd : cs[i + 1]? with
  | some d => exact .inr ⟨d, rfl, i, hc, hd⟩
  | none =>
    obtain ⟨root, hlast, hroot⟩ := h.ends
    have hi := (List.getElem?_eq_some_iff.mp hc).1
    have hend := List.getElem?_eq_none_iff.mp hd
    have hindex : cs.length - 1 = i := by omega
    rw [List.getLast?_eq_getElem?, hindex, hc] at hlast
    exact .inl (Option.some.inj hlast ▸ hroot)

/-- Both ways of pairing come to the same issuer. -/
theorem agrees (h : IsOrdered cs) (check : Check σ) (hc : cs[i]? = some c) :
    Verifier.Call.Agrees env (check, c, some (cs[i + 1]?.getD c)) (check, c, c.findIssuer? cs) := by
  refine ⟨rfl, rfl, ?_⟩
  by_cases hroot : c.isRootCa = true
  · exact ⟨c, if_pos hroot, if_pos hroot⟩
  · obtain ⟨d, hd, hnext⟩ := (h.isRootCa_or_isNext hc).resolve_left hroot
    have hpaired : Inquiry.resolveIssuer env c (some d) = pure d := if_neg hroot
    refine ⟨d, ?_, ?_⟩
    · rw [hd, Option.getD_some, hpaired]
    · rw [h.findIssuer?_eq hnext, hpaired]

end Certificate.IsOrdered

/-! ## Calls that agree -/

/-- A check makes use of the issuer paired with a certificate only to come to its issuer. -/
theorem Check.IsSetUp.run_eq {s : Settings.Revocation} {check : Check σ} (h : check.IsSetUp env s)
    {c : Certificate} {paired paired' : Option Certificate}
    (hissuer : Inquiry.resolveIssuer env c paired = Inquiry.resolveIssuer env c paired') :
    check.run c paired = check.run c paired' := by
  cases h with
  | ocsp =>
    show Ocsp.check env _ c paired = Ocsp.check env _ c paired'
    rw [Ocsp.check, Ocsp.check, hissuer]
  | @crl places =>
    have hfetch : ∀ source, Crl.fetch env source c paired = Crl.fetch env source c paired' := by
      intro source
      cases source with
      | named url =>
        rw [Crl.fetch, Crl.fetch, hissuer]
      | point url issuer => rfl
      | file path issuer => rfl
    show Crl.check env places c paired = Crl.check env places c paired'
    rw [Crl.check, Crl.check]
    cases places.source? c with
    | none => rfl
    | some source => simp only [hfetch]

namespace Verifier

variable {settings : Settings.Revocation} {checks : Verifier σ}

theorem Call.Agrees.make_eq {call call' : Call σ} (h : call.Agrees env call')
    (hsetup : call.1.IsSetUp env settings) : call.make = call'.make := by
  obtain ⟨check, c, paired⟩ := call
  obtain ⟨_, _, paired'⟩ := call'
  obtain ⟨rfl, rfl, issuer, hissuer, hissuer'⟩ := h
  exact hsetup.run_eq (hissuer.trans hissuer'.symm)

theorem chainCalls_agree (h : Certificate.IsOrdered cs) (checks : Verifier σ) :
    List.Forall₂ (Call.Agrees env) (chainCalls checks cs) (presentedCalls checks cs) := by
  induction checks with
  | nil => exact .nil
  | cons check checks ih =>
    refine List.rel_append ?_ ih
    rw [List.forall₂_iff_get]
    refine ⟨by simp, ?_⟩
    intro i hi hi'
    have hlength : i < cs.length := by
      simp at hi
      omega
    simpa using h.agrees check (List.getElem?_eq_getElem hlength)

theorem mem_of_mem_chainCalls {call : Call σ} (h : call ∈ chainCalls checks cs) :
    call.1 ∈ checks := by
  obtain ⟨check, hcheck, hcall⟩ := List.mem_flatMap.mp h
  obtain ⟨i, hi, rfl⟩ := List.mem_mapIdx.mp hcall
  exact hcheck

/-- Calls that agree go the same way. -/
theorem Conducts.of_agree {due due' made : List (Call σ)} {result : Except VerifyFault Unit}
    {s t : σ} (h : Conducts due s made result t) (hagree : List.Forall₂ (Call.Agrees env) due due')
    (hsetup : ∀ call ∈ due, call.1.IsSetUp env settings) :
    ∃ made', Conducts due' s made' result t ∧ List.Forall₂ (Call.Agrees env) made made' := by
  induction h generalizing due' with
  | done =>
    cases hagree
    exact ⟨[], .done, .nil⟩
  | passed hcall _ ih =>
    obtain ⟨hsetup, hrest⟩ := List.forall_mem_cons.mp hsetup
    cases hagree with
    | cons hfirst hagree =>
      obtain ⟨made', hmade, hsame⟩ := ih hagree hrest
      rw [hfirst.make_eq hsetup] at hcall
      exact ⟨_ :: made', .passed hcall hmade, .cons hfirst hsame⟩
  | failed hcall =>
    cases hagree with
    | cons hfirst hagree =>
      rw [hfirst.make_eq (List.forall_mem_cons.mp hsetup).1] at hcall
      exact ⟨[_], .failed hcall, .cons hfirst .nil⟩

theorem dueCalls_chain (checks : Verifier σ) (raw : List Octets) (hcs : cs ≠ []) :
    dueCalls checks raw [cs] = .ok (chainCalls checks cs) := by
  rw [dueCalls]
  split
  case isTrue hnone =>
    rw [List.isEmpty_iff.mp hnone]
    rfl
  case isFalse => simp [hcs]

theorem dueCalls_presented (h : Certificate.IsOrdered cs) (checks : Verifier σ) :
    dueCalls checks (cs.map (·.der)) [] = .ok (presentedCalls checks cs) := by
  have hparse : parse (cs.map (·.der)) = .ok cs := by
    rw [parse_eq_ok_iff, List.forall₂_map_left_iff, List.forall₂_same]
    exact h.read
  rw [dueCalls]
  split
  case isTrue hnone =>
    rw [List.isEmpty_iff.mp hnone]
    rfl
  case isFalse =>
    rw [hparse]
    simp [h.ne_nil, Except.map]

/-- For certificates in order the result is the same whether they come as one chain or only as they
were presented, whatever the surroundings are and answer. The same calls are made, in the same
order and with the same issuers. -/
theorem verify_chain_eq_presented (hsetup : ∀ check ∈ checks, check.IsSetUp env settings)
    (hcs : Certificate.IsOrdered cs) (raw : List Octets) :
    verify checks raw [cs] = verify checks (cs.map (·.der)) [] ∧
    ∀ s, ∃ made made' result t,
      (verify (recorded checks) raw [cs]).run.run (s, []) = (result, t, made) ∧
      (verify (recorded checks) (cs.map (·.der)) []).run.run (s, []) = (result, t, made') ∧
      List.Forall₂ (Call.Agrees env) made made' ∧
      (verify checks raw [cs]).run.run s = (result, t) := by
  have hchain := dueCalls_chain checks raw hcs.ne_nil
  have hpresented := dueCalls_presented hcs checks
  have hruns : ∀ s, ∃ made made' result t, Conducts (chainCalls checks cs) s made result t ∧
      Conducts (presentedCalls checks cs) s made' result t ∧
      List.Forall₂ (Call.Agrees env) made made' := by
    intro s
    obtain ⟨made, result, t, hmade⟩ := exists_conducts (chainCalls checks cs) s
    obtain ⟨made', hmade', hsame⟩ := hmade.of_agree (chainCalls_agree hcs checks)
      fun call hcall => hsetup call.1 (mem_of_mem_chainCalls hcall)
    exact ⟨made, made', result, t, hmade, hmade', hsame⟩
  constructor
  · refine funext fun s => ?_
    obtain ⟨made, made', result, t, hmade, hmade', -⟩ := hruns s
    rw [verify_eq, verify_eq, hchain, hpresented]
    exact hmade.run_eq.trans hmade'.run_eq.symm
  · intro s
    obtain ⟨made, made', result, t, hmade, hmade', hsame⟩ := hruns s
    refine ⟨made, made', result, t, ?_, ?_, hsame, ?_⟩
    · rw [verify_eq, dueCalls_recorded, hchain]
      exact (hmade.recorded []).run_eq
    · rw [verify_eq, dueCalls_recorded, hpresented]
      exact (hmade'.recorded []).run_eq
    · rw [verify_eq, hchain]
      exact hmade.run_eq

/-! ## A chain of three -/

def rootDer : Octets :=
  .ofNat 40 0x308201a730820110a003020102020101300d06092a864886f70d0101050500300f310d300b060355 ++
    .ofNat 40 0x04030c04726f6f74301e170d3230303130313030303030305a170d3439313233313233353935395a ++
    .ofNat 40 0x300f310d300b06035504030c04726f6f7430819f300d06092a864886f70d010101050003818d0030 ++
    .ofNat 40 0x818902818100dec64f42f4be163e76f8bb2cd9b821a4bc93a732b1c15fee7576f108487b540e62fe ++
    .ofNat 40 0x1da941f77150fbfa00ee753de5366873782310ba930b00be83fdcece001e802b63982d0919aae896 ++
    .ofNat 40 0xc7fd052c000b042361a8fe301b7d0a101787e22619f282268d3e8dbdb5209b743705504723723a5c ++
    .ofNat 40 0x29a2eec2525762fe9bb14913f5f50203010001a3133011300f0603551d130101ff040530030101ff ++
    .ofNat 40 0x300d06092a864886f70d01010505000381810064eb224ccbfba1858f07401c7bc6a8900c7a4f266d ++
    .ofNat 40 0x8533c38b5c180a1fc0f694200aa2dbea60f094a672dea96dd7d35ffb498e2c5e7665b461b60d1ac1 ++
    .ofNat 40 0x67e4e0dc5361dd364688271c81740cf816f0fc41847a6f3c3c07380fa8034e84135a60ce83d320a3 ++
    .ofNat 27 0x08560a770b259524e6b16982bc5eef359e498fccb953e41e3d6bbe

def root : Certificate := (Certificate.ofDer rootDer).toOption.get (by decide +kernel)

def askingBoth : Settings.Revocation where
  methods := [.crl, .ocsp]
  crl := { offlineFile := some "list", depth := 3 }
  ocsp := { responderUrl := some "http://responder.test/", depth := 3 }

def bothChecks : Verifier Unit :=
  [⟨.crl, 3, Crl.check Crl.listOnly { file := some ("list", none) }⟩,
    ⟨.ocsp, 3, Ocsp.check Crl.listOnly (some "http://responder.test/")⟩]

/-- The authority is on the list, so that the root and the responder are not reached. -/
theorem three_either_way :
    (∀ check ∈ bothChecks, check.IsSetUp Crl.listOnly askingBoth) ∧
    Certificate.IsOrdered [Tls.pump, Tls.plant, root] ∧
    verify bothChecks [] [[Tls.pump, Tls.plant, root]] =
      verify bothChecks ([Tls.pump, Tls.plant, root].map (·.der)) [] ∧
    ((verify bothChecks [] [[Tls.pump, Tls.plant, root]]).run.run ()).1 =
      .error (.revoked "2" { moment := 1704067200 }) := by
  have hsetup : ∀ check ∈ bothChecks, check.IsSetUp Crl.listOnly askingBoth := by
    have hplaces : Yields (Crl.placesOfSettings Crl.listOnly askingBoth.crl) ()
        { file := some ("list", none) } () := by
      show @Eq (Except SetupFault Crl.Places × Unit) _ _
      decide +kernel
    intro check hcheck
    obtain rfl | hcheck := List.mem_cons.mp hcheck
    · exact .crl hplaces
    · rw [List.mem_singleton.mp hcheck]
      exact .ocsp
  have hordered : Certificate.IsOrdered [Tls.pump, Tls.plant, root] := by
    refine ⟨by decide +kernel, by decide +kernel, ⟨root, rfl, by decide +kernel⟩, ?_⟩
    decide +kernel
  exact ⟨hsetup, hordered, (verify_chain_eq_presented hsetup hordered []).1, by decide +kernel⟩

end Verifier
end MqttGateway
