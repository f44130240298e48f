import MqttGateway.Proofs.Revocation.Verifying
/-!
# Which checks are made

What a client presented settles which calls are due: on each chain, or on the presented
certificates where no chain has any. They are made one after another until one fails. Main
statement: whatever the checks do, exactly these calls are made, and the first fault is the result.
-/
namespace MqttGateway

variable {σ : Type}

def Check.recorded (check : Check σ) : Check (σ × List (Verifier.Call σ)) where
  method := check.method
  depth := check.depth
  run c issuer := ExceptT.mk fun (s, made) =>
    let (result, t) := (check.run c issuer).run.run s
    (result, t, made ++ [(check, c, issuer)])

namespace Verifier

def recorded (checks : Verifier σ) : Verifier (σ × List (Call σ)) :=
  checks.map Check.recorded

/-! ## The calls that are due -/

/-- Check by check, the certificates from the leaf to its depth, but at least the leaf. Each is
checked against the next of the chain, and the last against itself. -/
def chainCalls (checks : Verifier σ) (chain : List Certificate) : List (Call σ) :=
  checks.flatMap fun check =>
    (chain.take (max check.depth 1)).mapIdx fun i c => (check, c, some (chain[i + 1]?.getD c))

/-- The same for certificates in any order. Each is checked against its issuer among them. -/
def presentedCalls (checks : Verifier σ) (cs : List Certificate) : List (Call σ) :=
  checks.flatMap fun check =>
    (cs.take (max check.depth 1)).map fun c => (check, c, c.findIssuer? cs)

example (run : Certificate → Option Certificate → Inquiry σ Unit) (leaf middle root : Certificate) :
    chainCalls [⟨.ocsp, 0, run⟩, ⟨.crl, 4, run⟩] [leaf, middle, root] =
      [(⟨.ocsp, 0, run⟩, leaf, some middle), (⟨.crl, 4, run⟩, leaf, some middle),
        (⟨.crl, 4, run⟩, middle, some root), (⟨.crl, 4, run⟩, root, some root)] := rfl

inductive Due (checks : Verifier σ) (raw : List Octets) (chains : List (List Certificate)) :
    Except VerifyFault (List (Call σ)) → Prop
  | unchecked : checks = [] → Due checks raw chains (.ok [])
  | chains : checks ≠ [] → (∃ chain ∈ chains, chain ≠ []) →
      Due checks raw chains (.ok (chains.flatMap (chainCalls checks)))
  | nothing : checks ≠ [] → (∀ chain ∈ chains, chain = []) → raw = [] →
      Due checks raw chains (.error .noCertificate)
  /-- All presented certificates have to be readable, also those beyond every depth. -/
  | unreadable {before der after fault} : checks ≠ [] → (∀ chain ∈ chains, chain = []) →
      raw = before ++ der :: after → (∀ der ∈ before, ∃ c, Certificate.ofDer der = .ok c) →
      Certificate.ofDer der = .error fault →
      Due checks raw chains (.error (.certificate (.encoding fault)))
  | presented {cs} : checks ≠ [] → (∀ chain ∈ chains, chain = []) → raw ≠ [] →
      List.Forall₂ (fun der c => Certificate.ofDer der = .ok c) raw cs →
      Due checks raw chains (.ok (presentedCalls checks cs))

def dueCalls (checks : Verifier σ) (raw : List Octets) (chains : List (List Certificate)) :
    Except VerifyFault (List (Call σ)) :=
  if checks.isEmpty then .ok []
  else if chains.any fun chain => !chain.isEmpty then .ok (chains.flatMap (chainCalls checks))
  else if raw.isEmpty then .error .noCertificate
  else (parse raw).map (presentedCalls checks)

variable {checks : Verifier σ} {raw : List Octets} {chains : List (List Certificate)}
  {due : Except VerifyFault (List (Call σ))}

theorem calls_pairChain (checks : Verifier σ) (chain : List Certificate) :
    calls checks (pairChain chain) = chainCalls checks chain := by
  refine congrArg (checks.flatMap ·) (funext fun check => List.ext_getElem? fun i => ?_)
  rw [List.getElem?_map, List.getElem?_mapIdx, List.getElem?_take, List.getElem?_take]
  split
  · rw [getElem?_pairChain, Option.map_map]
    rfl
  · rfl

theorem calls_pairRaw (checks : Verifier σ) (cs : List Certificate) :
    calls checks (pairRaw cs) = presentedCalls checks cs := by
  refine congrArg (checks.flatMap ·) (funext fun check => ?_)
  rw [pairRaw, ← List.map_take, List.map_map]
  rfl

theorem parse_eq_ok_iff {cs : List Certificate} :
    parse raw = .ok cs ↔ List.Forall₂ (fun der c => Certificate.ofDer der = .ok c) raw cs := by
  rw [parse, mapM_mapError_eq_ok_iff, mapM_eq_ok_iff]

theorem parse_eq_error_iff {fault : VerifyFault} :
    parse raw = .error fault ↔ ∃ before der after cause, raw = before ++ der :: after ∧
      (∀ der ∈ before, ∃ c, Certificate.ofDer der = .ok c) ∧
      Certificate.ofDer der = .error cause ∧ fault = .certificate (.encoding cause) := by
  rw [parse, mapM_eq_error_iff]
  simp only [mapError_eq_ok_iff, mapError_eq_error_iff]
  constructor
  · rintro ⟨before, der, after, hsplit, hbefore, cause, hder, rfl⟩
    exact ⟨before, der, after, cause, hsplit, hbefore, hder, rfl⟩
  · rintro ⟨before, der, after, cause, hsplit, hbefore, hder, rfl⟩
    exact ⟨before, der, after, hsplit, hbefore, cause, hder, rfl⟩

theorem due_iff : Due checks raw chains due ↔ due = dueCalls checks raw chains := by
  have hsome : chains.any (fun chain => !chain.isEmpty) = true ↔ ∃ chain ∈ chains, chain ≠ [] := by
    simp
  have hnone (hempty : ∀ chain ∈ chains, chain = []) :
      ¬ chains.any (fun chain => !chain.isEmpty) = true := by
    simpa using hempty
  constructor
  · intro h
    cases h with
    | unchecked hchecks => rw [dueCalls, if_pos (List.isEmpty_iff.mpr hchecks)]
    | chains hchecks hchain =>
      rw [dueCalls, if_neg (mt List.isEmpty_iff.mp hchecks), if_pos (hsome.mpr hchain)]
    | nothing hchecks hempty hraw =>
      rw [dueCalls, if_neg (mt List.isEmpty_iff.mp hchecks), if_neg (hnone hempty),
        if_pos (List.isEmpty_iff.mpr hraw)]
    | unreadable hchecks hempty hraw hbefore hder =>
      rw [dueCalls, if_neg (mt List.isEmpty_iff.mp hchecks), if_neg (hnone hempty),
        if_neg (by simp [hraw]), parse_eq_error_iff.mpr ⟨_, _, _, _, hraw, hbefore, hder, rfl⟩]
      rfl
    | presented hchecks hempty hraw hcs =>
      rw [dueCalls, if_neg (mt List.isEmpty_iff.mp hchecks), if_neg (hnone hempty),
        if_neg (mt List.isEmpty_iff.mp hraw), parse_eq_ok_iff.mpr hcs]
      rfl
  · rintro rfl
    by_cases hchecks : checks = []
    · rw [dueCalls, if_pos (List.isEmpty_iff.mpr hchecks)]
      exact .unchecked hchecks
    rw [dueCalls, if_neg (mt List.isEmpty_iff.mp hchecks)]
    by_cases hchain : ∃ chain ∈ chains, chain ≠ []
    · rw [if_pos (hsome.mpr hchain)]
      exact .chains hchecks hchain
    have hempty : ∀ chain ∈ chains, chain = [] := by simpa using hchain
    rw [if_neg (hnone hempty)]
    by_cases hraw : raw = []
    · rw [if_pos (List.isEmpty_iff.mpr hraw)]
      exact .nothing hchecks hempty hraw
    rw [if_neg (mt List.isEmpty_iff.mp hraw)]
    cases hparse : parse raw with
    | error fault =>
      obtain ⟨before, der, after, cause, hsplit, hbefore, hder, rfl⟩ :=
        parse_eq_error_iff.mp hparse
      exact .unreadable hchecks hempty hsplit hbefore hder
    | ok cs => exact .presented hchecks hempty hraw (parse_eq_ok_iff.mp hparse)

/-- Verifying makes the calls that are due. -/
theorem verify_eq (checks : Verifier σ) (raw : List Octets) (chains : List (List Certificate)) :
    verify checks raw chains =
      MonadExcept.ofExcept (dueCalls checks raw chains) >>= fun calls => calls.forM Call.make := by
  rw [verify, dueCalls]
  split
  · rfl
  split
  · simp only [runChecks_eq, calls_pairChain]
    exact (forM_flatMap chains).symm
  split
  · rfl
  simp only [runChecks_eq, calls_pairRaw]
  cases parse raw <;> rfl

/-! ## Making calls -/

inductive Conducts : List (Call σ) → σ → List (Call σ) → Except VerifyFault Unit → σ → Prop
  | done {s} : Conducts [] s [] (.ok ()) s
  | passed {call due made result s t u} : Yields call.make s () t → Conducts due t made result u →
      Conducts (call :: due) s (call :: made) result u
  | failed {call due fault s t} : Faults call.make s fault t →
      Conducts (call :: due) s [call] (.error fault) t

inductive Consults :
    Except VerifyFault (List (Call σ)) → σ → List (Call σ) → Except VerifyFault Unit → σ → Prop
  | refused {fault s} : Consults (.error fault) s [] (.error fault) s
  | asked {due made result s t} : Conducts due s made result t →
      Consults (.ok due) s made result t

section

variable {due made : List (Call σ)} {result : Except VerifyFault Unit} {s t : σ}

theorem exists_conducts (due : List (Call σ)) (s : σ) :
    ∃ made result t, Conducts due s made result t := by
  induction due generalizing s with
  | nil => exact ⟨_, _, _, .done⟩
  | cons call due ih =>
    rcases hcall : call.make.run.run s with ⟨fault | ⟨⟩, t⟩
    · exact ⟨_, _, _, .failed hcall⟩
    · obtain ⟨made, result, u, h⟩ := ih t
      exact ⟨_, _, _, .passed hcall h⟩

namespace Conducts

theorem made_isPrefix (h : Conducts due s made result t) : made <+: due := by
  induction h with
  | done => exact List.prefix_rfl
  | passed _ _ ih => exact List.prefix_cons_inj _ |>.mpr ih
  | failed => exact ⟨_, rfl⟩

theorem result_eq_ok_iff (h : Conducts due s made result t) :
    result = .ok () ↔ Passes Call.make made s t := by
  induction h with
  | done => simp [Passes.nil_iff]
  | @passed call due made result s t u hcall _ ih =>
    rw [ih, Passes.cons_iff]
    constructor
    · exact fun hrest => ⟨t, hcall, hrest⟩
    · rintro ⟨t', hcall', hrest⟩
      cases hcall.symm.trans hcall'
      exact hrest
  | failed hcall =>
    refine ⟨nofun, fun hpasses => ?_⟩
    obtain ⟨_, hyields, -⟩ := Passes.cons_iff.mp hpasses
    cases hcall.symm.trans hyields

theorem made_eq (h : Conducts due s made result t) (hresult : result = .ok ()) : made = due := by
  induction h with
  | done => rfl
  | passed _ _ ih => rw [ih hresult]
  | failed => cases hresult

theorem run_eq (h : Conducts due s made result t) :
    (due.forM Call.make).run.run s = (result, t) := by
  have hcons (call : Call σ) (due : List (Call σ)) (s : σ) :
      ((call :: due).forM Call.make).run.run s =
        (ExceptT.bindCont (fun _ => due.forM Call.make) (call.make.run.run s).1).run
          (call.make.run.run s).2 := run_bind
  induction h with
  | done => rfl
  | passed hcall _ ih =>
    rw [hcons, hcall]
    exact ih
  | failed hcall =>
    rw [hcons, hcall]
    rfl

end Conducts

/-! ## Recorded calls -/

def Call.recorded (call : Call σ) : Call (σ × List (Call σ)) :=
  (call.1.recorded, call.2)

theorem Call.run_make_recorded (call : Call σ) (s : σ) (before : List (Call σ)) :
    call.recorded.make.run.run (s, before) =
      ((call.make.run.run s).1, (call.make.run.run s).2, before ++ [call]) :=
  rfl

/-- Noting the calls changes nothing about them. -/
theorem Conducts.recorded (h : Conducts due s made result t) (before : List (Call σ)) :
    Conducts (due.map Call.recorded) (s, before) (made.map Call.recorded) result
      (t, before ++ made) := by
  induction h generalizing before with
  | done => exact (List.append_nil before).symm ▸ .done
  | @passed call due made result s t u hcall _ ih =>
    have hnoted : Yields call.recorded.make (s, before) () (t, before ++ [call]) := by
      rw [Yields, Call.run_make_recorded, hcall]
    rw [List.append_cons]
    exact .passed hnoted (ih _)
  | failed hcall =>
    refine .failed ?_
    rw [Faults, Call.run_make_recorded, hcall]

theorem chainCalls_recorded (checks : Verifier σ) (chain : List Certificate) :
    chainCalls (recorded checks) chain = (chainCalls checks chain).map Call.recorded := by
  rw [chainCalls, chainCalls, recorded, List.flatMap_map, List.map_flatMap]
  refine congrArg (checks.flatMap ·) (funext fun check => List.ext_getElem? fun i => ?_)
  simp only [List.getElem?_map, List.getElem?_mapIdx, Option.map_map]
  rfl

theorem presentedCalls_recorded (checks : Verifier σ) (cs : List Certificate) :
    presentedCalls (recorded checks) cs = (presentedCalls checks cs).map Call.recorded := by
  rw [presentedCalls, presentedCalls, recorded, List.flatMap_map, List.map_flatMap]
  simp only [List.map_map]
  rfl

theorem dueCalls_recorded (checks : Verifier σ) (raw : List Octets)
    (chains : List (List Certificate)) :
    dueCalls (recorded checks) raw chains =
      (dueCalls checks raw chains).map (·.map Call.recorded) := by
  have hempty : (recorded checks).isEmpty = checks.isEmpty := List.isEmpty_map
  rw [dueCalls, dueCalls, hempty]
  split
  · rfl
  split
  · rw [funext (chainCalls_recorded checks), ← List.map_flatMap]
    rfl
  split
  · rfl
  cases parse raw with
  | error fault => rfl
  | ok cs => exact congrArg Except.ok (presentedCalls_recorded checks cs)

end

/-- For any checks, exactly the calls that are due are made, up to the first that fails. The result
is its fault, and verifying succeeds if there is none. -/
theorem verify_consults (checks : Verifier σ) (raw : List Octets) (chains : List (List Certificate))
    (s : σ) :
    ∃ due made result t, (∀ due', Due checks raw chains due' ↔ due' = due) ∧
      Consults due s made result t ∧
      (verify (recorded checks) raw chains).run.run (s, []) = (result, t, made) ∧
      (verify checks raw chains).run.run s = (result, t) ∧
      ∀ calls, due = .ok calls → made <+: calls ∧
        (result = .ok () ↔ Passes Call.make made s t) ∧ (result = .ok () → made = calls) := by
  cases hdue : dueCalls checks raw chains with
  | error fault =>
    refine ⟨.error fault, [], .error fault, s, fun due' => by rw [due_iff, hdue], .refused, ?_, ?_,
      fun _ => nofun⟩
    · rw [verify_eq, dueCalls_recorded, hdue]
      rfl
    · rw [verify_eq, hdue]
      rfl
  | ok calls =>
    obtain ⟨made, result, t, h⟩ := exists_conducts calls s
    refine ⟨.ok calls, made, result, t, fun due' => by rw [due_iff, hdue], .asked h, ?_, ?_, ?_⟩
    · rw [verify_eq, dueCalls_recorded, hdue]
      exact (h.recorded []).run_eq
    · rw [verify_eq, hdue]
      exact h.run_eq
    · rintro _ ⟨⟩
      exact ⟨h.made_isPrefix, h.result_eq_ok_iff, h.made_eq⟩

end Verifier
end MqttGateway
