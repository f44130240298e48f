import MqttGateway.Gateway.Basic
import MqttGateway.Proofs.Steps
/-!
# What a gateway is set up with

The checks of a gateway that has come up are those that its settings ask for, and where settings
that are consistent ask for any, the terminator runs them.
-/
namespace MqttGateway

variable {σ : Type} {env : Surroundings σ}

inductive Check.IsSetUp (env : Surroundings σ) (s : Settings.Revocation) : Check σ → Prop
  | ocsp : IsSetUp env s ⟨.ocsp, s.ocsp.depth.toNat, Ocsp.check env s.ocsp.responderUrl⟩
  | crl {places u v} : Yields (Crl.placesOfSettings env s.crl) u places v →
      IsSetUp env s ⟨.crl, s.crl.depth.toNat, Crl.check env places⟩

theorem Check.isSetUp {s : Settings.Revocation} {method : ValidationMethod} {check : Check σ}
    {u v : σ} (h : Yields (Check.ofMethod env s method) u check v) :
    check.method = method ∧ check.IsSetUp env s := by
  cases method with
  | ocsp =>
    rw [Check.ofMethod] at h
    split at h
    · obtain ⟨w, -, h⟩ := yields_unit_bind_iff.mp h
      obtain ⟨rfl, -⟩ := yields_pure_iff.mp h
      exact ⟨rfl, .ocsp⟩
    · obtain ⟨rfl, -⟩ := yields_pure_iff.mp h
      exact ⟨rfl, .ocsp⟩
  | crl =>
    obtain ⟨places, w, hplaces, h⟩ := yields_bind_iff.mp h
    obtain ⟨rfl, -⟩ := yields_pure_iff.mp h
    exact ⟨rfl, .crl hplaces⟩

theorem Verifier.methods_of_yields {s : Settings.Revocation} {checks : Verifier σ} {u v : σ}
    (h : Yields (Verifier.ofSettings env s) u checks v) :
    checks.methods = s.methods.eraseDups ∧ ∀ check ∈ checks, check.IsSetUp env s := by
  have hall := yields_mapM h
  clear h
  generalize s.methods.eraseDups = methods at hall
  induction hall with
  | nil => exact ⟨rfl, nofun⟩
  | cons hcheck _ ih =>
    obtain ⟨_, _, hcheck⟩ := hcheck
    obtain ⟨hmethod, hsetup⟩ := Check.isSetUp hcheck
    refine ⟨?_, List.forall_mem_cons.mpr ⟨hsetup, ih.2⟩⟩
    rw [Verifier.methods, List.map_cons, hmethod]
    exact congrArg _ ih.1

/-- Clients are asked for certificates where there is a key pair and a file of authorities. -/
theorem Terminator.eq_of_yields {s : Settings.Tls} {verifier : Verifier σ}
    {terminator : Option (Terminator σ)} {u v : σ}
    (h : Yields (Terminator.ofSettings env s verifier) u terminator v)
    (hcert : s.certFile.isSome) (hkey : s.keyFile.isSome) (hca : s.clientCaFile.isSome) :
    ∃ authorities, terminator =
      some ⟨if verifier.isEmpty then .mutual else .verified, some authorities, verifier⟩ := by
  obtain ⟨certFile, hcert⟩ := Option.isSome_iff_exists.mp hcert
  obtain ⟨keyFile, hkey⟩ := Option.isSome_iff_exists.mp hkey
  obtain ⟨caFile, hca⟩ := Option.isSome_iff_exists.mp hca
  rw [Terminator.ofSettings, hcert, hkey, hca] at h
  obtain ⟨authorities, w, hauthorities, h⟩ := yields_bind_iff.mp h
  obtain ⟨found, -, rfl⟩ := yields_map_iff.mp hauthorities
  obtain ⟨-, w', -, h⟩ := yields_bind_iff.mp h
  obtain ⟨rfl, -⟩ := yields_pure_iff.mp h
  refine ⟨found, ?_⟩
  rw [Security.ofSettings, hcert, hca]
  cases verifier <;> rfl

/-- Settings that ask for checks ask for certificates of clients as well. -/
theorem Settings.files_of_methods {s : Settings} (hs : s.inconsistency? = none)
    (hmethods : s.revocation.methods ≠ []) :
    s.tls.certFile.isSome ∧ s.tls.keyFile.isSome ∧ s.tls.clientCaFile.isSome := by
  rw [Settings.inconsistency?] at hs
  split at hs
  · cases hs
  next hpair =>
  split at hs
  · cases hs
  next hca =>
  split at hs
  · cases hs
  next hneed =>
  have hcaFile : s.tls.clientCaFile.isSome := by
    by_contra hnone
    exact hneed ⟨hmethods, Option.not_isSome_iff_eq_none.mp hnone ▸ rfl⟩
  have hcertFile : s.tls.certFile.isSome := by
    by_contra hnone
    exact hca ⟨hcaFile, Option.not_isSome_iff_eq_none.mp hnone ▸ rfl⟩
  have hsame : s.tls.certFile.isSome = s.tls.keyFile.isSome := not_not.mp hpair
  exact ⟨hcertFile, hsame ▸ hcertFile, hcaFile⟩

theorem eraseDups_ne_nil {methods : List ValidationMethod} (h : methods ≠ []) :
    methods.eraseDups ≠ [] := by
  cases methods with
  | nil => exact absurd rfl h
  | cons method methods => simp [List.eraseDups_cons]

/-- Where consistent settings ask for checks, the terminator has those checks and runs them. -/
theorem Gateway.terminator_of_yields {s : Settings} {g : Gateway σ} {u v : σ}
    (hs : s.inconsistency? = none) (hmethods : s.revocation.methods ≠ [])
    (h : Yields (Gateway.ofSettings env s) u g v) :
    ∃ authorities verifier, g.terminator = some ⟨.verified, some authorities, verifier⟩ ∧
      verifier.methods = s.revocation.methods.eraseDups ∧
      ∀ check ∈ verifier, check.IsSetUp env s.revocation := by
  obtain ⟨policy, u₁, -, h⟩ := yields_bind_iff.mp h
  obtain ⟨verifier, u₂, hverifier, h⟩ := yields_bind_iff.mp h
  obtain ⟨terminator, u₃, hterminator, h⟩ := yields_bind_iff.mp h
  obtain ⟨rfl, -⟩ := yields_pure_iff.mp h
  obtain ⟨hcert, hkey, hca⟩ := Settings.files_of_methods hs hmethods
  obtain ⟨authorities, rfl⟩ := Terminator.eq_of_yields hterminator hcert hkey hca
  obtain ⟨hsame, hsetup⟩ := Verifier.methods_of_yields hverifier
  have hchecks : verifier ≠ [] := by
    rintro rfl
    exact eraseDups_ne_nil hmethods hsame.symm
  refine ⟨authorities, verifier, ?_, hsame, hsetup⟩
  cases verifier with
  | nil => exact absurd rfl hchecks
  | cons check checks => rfl

end MqttGateway
