import MqttGateway.Proofs.Steps
/-!
# What passing a verifier comes to

A chain passes if each check, in order, passes each certificate within its depth, from the leaf
upwards. A certificate is checked against the next of the chain, and the last against itself.
-/
namespace MqttGateway

variable {σ : Type}

namespace Verifier

theorem getElem?_pairChain (cs : List Certificate) (i : Nat) :
    (pairChain cs)[i]? = cs[i]?.map fun c => (c, some (cs[i + 1]?.getD c)) := by
  induction cs generalizing i with
  | nil => simp [pairChain]
  | cons c rest ih =>
    cases rest with
    | nil => cases i <;> simp [pairChain]
    | cons issuer rest =>
      cases i with
      | zero => simp [pairChain]
      | succ i =>
        rw [pairChain, List.getElem?_cons_succ, ih]
        simp

abbrev Call (σ : Type) := Check σ × Certificate × Option Certificate

def Call.make (call : Call σ) : Inquiry σ Unit :=
  call.1.run call.2.1 call.2.2

def calls (checks : Verifier σ) (pairs : List (Certificate × Option Certificate)) : List (Call σ) :=
  checks.flatMap fun check => (pairs.take (max check.depth 1)).map (Prod.mk check)

/-- The checks on some pairs come down to one list of calls. -/
theorem runChecks_eq (checks : Verifier σ) (pairs : List (Certificate × Option Certificate)) :
    runChecks checks pairs = (calls checks pairs).forM Call.make := by
  rw [calls, forM_flatMap]
  simp only [List.forM_eq_forM, List.forM_map]
  rfl

theorem yields_runChecks_iff {checks : Verifier σ}
    {pairs : List (Certificate × Option Certificate)} {s t : σ} :
    Yields (runChecks checks pairs) s () t ↔ Passes Call.make (calls checks pairs) s t := by
  rw [runChecks_eq, yields_forM_iff]

/-- The presented certificates do not matter where there is a chain. -/
theorem yields_verify_chain_iff {checks : Verifier σ} {raw : List Octets} {chain : List Certificate}
    {s t : σ} (hchecks : checks ≠ []) (hchain : chain ≠ []) :
    Yields (verify checks raw [chain]) s () t ↔
      Passes Call.make (calls checks (pairChain chain)) s t := by
  have hverify : verify checks raw [chain] =
      (runChecks checks (pairChain chain) >>= fun _ => pure ()) := by
    simp [verify, hchecks, hchain, List.forM]
  rw [hverify, bind_pure_unit, yields_runChecks_iff]

theorem verify_nothing {checks : Verifier σ} (hchecks : checks ≠ []) :
    verify checks [] [[]] = throw .noCertificate := by
  simp [verify, hchecks]

theorem mem_calls {checks : Verifier σ} {chain : List Certificate} {check : Check σ}
    (hcheck : check ∈ checks) {i : Nat} (hdepth : i < max check.depth 1) {c : Certificate}
    (hc : chain[i]? = some c) :
    (check, c, some (chain[i + 1]?.getD c)) ∈ calls checks (pairChain chain) := by
  have hpair : (pairChain chain)[i]? = some (c, some (chain[i + 1]?.getD c)) := by
    rw [getElem?_pairChain, hc]
    rfl
  have htake : (c, some (chain[i + 1]?.getD c)) ∈ (pairChain chain).take (max check.depth 1) := by
    apply List.mem_of_getElem? (i := i)
    rw [List.getElem?_take_of_lt hdepth, hpair]
  exact List.mem_flatMap.mpr ⟨check, hcheck, List.mem_map_of_mem htake⟩

end Verifier
end MqttGateway
