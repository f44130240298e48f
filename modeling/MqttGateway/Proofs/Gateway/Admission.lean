import MqttGateway.Proofs.Gateway.Setup
import MqttGateway.Proofs.Revocation.Verifying
import MqttGateway.Proofs.Tls.Chain
/-!
# Clients that are let in

Main statement: if settings are consistent and ask for checks, then a gateway that has come up with
them lets a client in only if it presented a certificate, and if every check that was asked for
cleared the chain of this certificate, as far up as the check goes.
-/
namespace MqttGateway

variable {σ : Type} {env : Surroundings σ}

namespace Terminator

variable {t : Terminator σ} {presented : List Octets} {u v : σ}

def chainOf (t : Terminator σ) (certificates : List Certificate) : List Certificate :=
  Tls.chain certificates (t.authorities.getD {}).certificates

def callsOn (t : Terminator σ) (certificates : List Certificate) : List (Verifier.Call σ) :=
  Verifier.calls t.verifier (Verifier.pairChain (t.chainOf certificates))

theorem yields_gate_iff : Yields (t.gate presented) u () v ↔
    ∃ cs, presented.mapM Certificate.ofDer = .ok cs ∧
      Yields (t.verifier.verify presented [t.chainOf cs]) u () v := by
  rw [gate, yields_bind_iff]
  constructor
  · rintro ⟨cs, w, hsettled, hverify⟩
    obtain ⟨hparse, rfl⟩ := yields_ofExcept_iff.mp hsettled
    exact ⟨cs, mapM_mapError_eq_ok_iff.mp hparse, yields_adapt_iff.mp hverify⟩
  · rintro ⟨cs, hparse, hverify⟩
    exact ⟨cs, u, yields_ofExcept_iff.mpr ⟨mapM_mapError_eq_ok_iff.mpr hparse, rfl⟩,
      yields_adapt_iff.mpr hverify⟩

/-- Whoever is let in presented certificates, and the chain of the first passed the checks. -/
theorem yields_gate_iff_passes (hchecks : t.verifier ≠ []) : Yields (t.gate presented) u () v ↔
    ∃ c rest, presented.mapM Certificate.ofDer = .ok (c :: rest) ∧
      Passes Verifier.Call.make (t.callsOn (c :: rest)) u v := by
  have hchain : ∀ c rest, t.chainOf (c :: rest) ≠ [] := by
    intro c rest hnil
    cases (Tls.chain_eq_nil_iff _ _).mp hnil
  rw [yields_gate_iff]
  constructor
  · rintro ⟨cs, hparse, hverify⟩
    cases cs with
    | nil =>
      have hnone : presented = [] := List.forall₂_nil_right_iff.mp (mapM_eq_ok_iff.mp hparse)
      subst hnone
      rw [chainOf, Tls.chain, Verifier.verify_nothing hchecks] at hverify
      exact absurd hverify not_yields_throw
    | cons c rest =>
      exact ⟨c, rest, hparse,
        (Verifier.yields_verify_chain_iff hchecks (hchain c rest)).mp hverify⟩
  · rintro ⟨c, rest, hparse, hpasses⟩
    exact ⟨c :: rest, hparse,
      (Verifier.yields_verify_chain_iff hchecks (hchain c rest)).mpr hpasses⟩

theorem yields_screen_iff (hsecurity : t.security = .verified) (hchecks : t.verifier ≠ [])
    {leaf : Option Certificate} : Yields (t.screen presented) u leaf v ↔
    ∃ c rest, presented.mapM Certificate.ofDer = .ok (c :: rest) ∧ leaf = some c ∧
      Passes Verifier.Call.make (t.callsOn (c :: rest)) u v := by
  have hscreen : t.screen presented = (MonadExcept.ofExcept (presented.head?.mapM parse) >>= fun leaf =>
      t.gate presented >>= fun _ => pure leaf) := by
    simp only [screen, if_pos hsecurity]
  have hleaf : ∀ {c rest}, presented.mapM Certificate.ofDer = .ok (c :: rest) →
      presented.head?.mapM parse = .ok (some c) := by
    intro c rest hparse
    obtain ⟨der, ders, hc, -, rfl⟩ :=
      List.forall₂_cons_right_iff.mp (mapM_eq_ok_iff.mp hparse)
    have hder : parse der = .ok c := mapError_eq_ok_iff.mpr hc
    simp [hder, Functor.map, Except.map]
  rw [hscreen, yields_bind_iff]
  constructor
  · rintro ⟨found, w, hsettled, h⟩
    obtain ⟨hfound, rfl⟩ := yields_ofExcept_iff.mp hsettled
    obtain ⟨w, hgate, h⟩ := yields_unit_bind_iff.mp h
    obtain ⟨rfl, rfl⟩ := yields_pure_iff.mp h
    obtain ⟨c, rest, hparse, hpasses⟩ := (yields_gate_iff_passes hchecks).mp hgate
    refine ⟨c, rest, hparse, ?_, hpasses⟩
    exact Except.ok.inj (hfound.symm.trans (hleaf hparse))
  · rintro ⟨c, rest, hparse, rfl, hpasses⟩
    refine ⟨some c, u, yields_ofExcept_iff.mpr ⟨hleaf hparse, rfl⟩, ?_⟩
    have hgate := (yields_gate_iff_passes hchecks).mpr ⟨c, rest, hparse, hpasses⟩
    exact yields_unit_bind_iff.mpr ⟨v, hgate, yields_pure_iff.mpr ⟨rfl, rfl⟩⟩

end Terminator

/-- Each method that was asked for has its check, which is made on the chain as far up as the check
goes. -/
def Verifier.Covers (env : Surroundings σ) (s : Settings.Revocation) (checks : Verifier σ)
    (chain : List Certificate) : Prop :=
  ∀ method ∈ s.methods, ∃ check ∈ checks, check.method = method ∧ check.IsSetUp env s ∧
    ∀ i c, i < max check.depth 1 → chain[i]? = some c →
      (check, c, some (chain[i + 1]?.getD c)) ∈ calls checks (pairChain chain)

theorem Verifier.covers_of_methods {s : Settings.Revocation} {checks : Verifier σ}
    (hsame : checks.methods = s.methods.eraseDups)
    (hsetup : ∀ check ∈ checks, check.IsSetUp env s) (chain : List Certificate) :
    checks.Covers env s chain := by
  intro method hmethod
  have hasked : method ∈ checks.methods := by
    rw [hsame]
    exact List.mem_eraseDups.mpr hmethod
  obtain ⟨check, hcheck, hname⟩ := List.mem_map.mp hasked
  exact ⟨check, hcheck, hname, hsetup check hcheck, fun i c hdepth hc => mem_calls hcheck hdepth hc⟩

/-- A gateway that is to check certificates lets a client in only if it presented some, and exactly
if all checks on the chain of the first come to a good end. -/
theorem Gateway.admits_only_checked {s : Settings} {g : Gateway σ} {before after : σ}
    (hconsistent : s.inconsistency? = none) (hmethods : s.revocation.methods ≠ [])
    (hsetup : Yields (Gateway.ofSettings env s) before g after) :
    g.security = .verified ∧ ∃ t, g.terminator = some t ∧
      t.verifier.methods = s.revocation.methods.eraseDups ∧
      ∀ presented leaf u v, Yields (t.screen presented) u leaf v ↔
        ∃ c rest, presented.mapM Certificate.ofDer = .ok (c :: rest) ∧ leaf = some c ∧
          (t.chainOf (c :: rest)).head? = some c ∧
          t.verifier.Covers env s.revocation (t.chainOf (c :: rest)) ∧
          Passes Verifier.Call.make (t.callsOn (c :: rest)) u v := by
  obtain ⟨authorities, verifier, hterminator, hsame, hchecks⟩ :=
    Gateway.terminator_of_yields hconsistent hmethods hsetup
  have hsecurity : g.security = .verified := by rw [Gateway.security, hterminator]
  have hverifier : verifier ≠ [] := by
    rintro rfl
    exact eraseDups_ne_nil hmethods hsame.symm
  refine ⟨hsecurity, _, hterminator, hsame, fun presented leaf u v => ?_⟩
  rw [Terminator.yields_screen_iff rfl hverifier]
  constructor
  · rintro ⟨c, rest, hparse, hleaf, hpasses⟩
    exact ⟨c, rest, hparse, hleaf, Tls.head?_chain _ _,
      Verifier.covers_of_methods hsame hchecks _, hpasses⟩
  · rintro ⟨c, rest, hparse, hleaf, -, -, hpasses⟩
    exact ⟨c, rest, hparse, hleaf, hpasses⟩

/-- A file with a certificate for the key whose secret number is 1. -/
def certificateFile : Octets :=
  .ofNat 40 0x2d2d2d2d2d424547494e2043455254494649434154452d2d2d2d2d0a4d49476c4d4947546f414d43 ++
    .ofNat 40 0x4151494341514577436759494b6f5a497a6a30454177497741444165467730794d4441784d444577 ++
    .ofNat 40 0x4d4441774d444261467730304f5445794d7a45794d7a55354e546c614d4141775754415442676371 ++
    .ofNat 40 0x686b6a4f5051494242676771686b6a4f50514d4242774e43414152724639487934537843522f6938 ++
    .ofNat 40 0x3575566a7045447964774e39675333724d3644306f546c46324a6a436c6b2f6a51754c2b476e2b62 ++
    .ofNat 40 0x6a756672536e77506e6859727a6a4e58617a46657a73753251476733763148314d416f4743437147 ++
    .ofNat 39 0x534d343942414d43417745410a2d2d2d2d2d454e442043455254494649434154452d2d2d2d2d0a

def keyFile : Octets :=
  .ofNat 40 0x2d2d2d2d2d424547494e2045432050524956415445204b45592d2d2d2d2d0a4d4773434151454549 ++
    .ofNat 40 0x41414141414141414141414141414141414141414141414141414141414141414141414141414141 ++
    .ofNat 40 0x4141426f555144516741456178665238754573516b6634764f626c59365241386e63446659457436 ++
    .ofNat 40 0x7a4f67394b45355264695977705a5034304c692f68702f6d34376e36307038443534574b38347a56 ++
    .ofNat 40 0x3273785873374c746b426f4e37395239513d3d0a2d2d2d2d2d454e44204543205052495641544520 ++
    .ofNat 9 0x4b45592d2d2d2d2d0a

def keyPairOnly : Surroundings Unit where
  send _ := return .error none
  read path := return if path = "key" then some keyFile else some certificateFile
  now := return 0

def askingResponders : Settings where
  tls := { certFile := some "pair", keyFile := some "key", clientCaFile := some "authorities" }
  revocation := { methods := [.ocsp] }

theorem Gateway.admits_nobody_without_certificate : ∃ g after,
    Yields (Gateway.ofSettings keyPairOnly askingResponders) () g after ∧ g.security = .verified ∧
      ∃ t, g.terminator = some t ∧ ∀ leaf u v, ¬ Yields (t.screen []) u leaf v := by
  obtain ⟨g, after, hsetup⟩ : ∃ g after,
      Yields (Gateway.ofSettings keyPairOnly askingResponders) () g after :=
    exists_yields_of_isOk (by decide +kernel)
  obtain ⟨hsecurity, t, hterminator, -, hscreen⟩ :=
    Gateway.admits_only_checked rfl (List.cons_ne_nil _ _) hsetup
  refine ⟨g, after, hsetup, hsecurity, t, hterminator, fun leaf u v h => ?_⟩
  obtain ⟨c, rest, hparse, -⟩ := (hscreen [] leaf u v).mp h
  cases mapM_eq_ok_iff.mp hparse

end MqttGateway
