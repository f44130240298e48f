import MqttGateway.Gateway.Fault
import MqttGateway.Proofs.Checks
import MqttGateway.Tls.Terminator
/-!
# What steps in some surroundings come to

Setting up, inquiring and admitting are steps that may change the surroundings and end early. What
such steps yield, from one state of the surroundings to another, is told by what their parts yield.
-/
namespace MqttGateway

variable {ε ε' σ α β : Type}

def Yields (steps : ExceptT ε (StateM σ) α) (s : σ) (a : α) (t : σ) : Prop :=
  steps.run.run s = (.ok a, t)

def Faults (steps : ExceptT ε (StateM σ) α) (s : σ) (fault : ε) (t : σ) : Prop :=
  steps.run.run s = (.error fault, t)

section
variable {steps : ExceptT ε (StateM σ) α} {next : α → ExceptT ε (StateM σ) β} {s t u : σ}
  {a c : α} {b : β} {fault : ε}

theorem exists_yields_of_isOk (h : (steps.run.run s).1.isOk = true) :
    ∃ a t, Yields steps s a t := by
  rcases hrun : steps.run.run s with ⟨result, t⟩
  cases result with
  | ok a => exact ⟨a, t, hrun⟩
  | error fault =>
    rw [hrun] at h
    cases h

@[simp] theorem yields_pure_iff :
    Yields (pure c : ExceptT ε (StateM σ) α) s a t ↔ a = c ∧ t = s := by
  constructor
  · rintro ⟨⟩
    exact ⟨rfl, rfl⟩
  · rintro ⟨rfl, rfl⟩
    rfl

@[simp] theorem not_yields_throw : ¬ Yields (throw fault : ExceptT ε (StateM σ) α) s a t := by
  rintro ⟨⟩

theorem run_bind : (steps >>= next).run.run s =
    (ExceptT.bindCont next (steps.run.run s).1).run (steps.run.run s).2 :=
  rfl

theorem yields_bind_iff :
    Yields (steps >>= next) s b t ↔ ∃ a u, Yields steps s a u ∧ Yields (next a) u b t := by
  simp only [Yields]
  rw [run_bind]
  rcases steps.run.run s with ⟨result, u⟩
  cases result with
  | error fault =>
    constructor
    · rintro ⟨⟩
    · rintro ⟨_, _, ⟨⟩, _⟩
  | ok a =>
    constructor
    · exact fun h => ⟨a, u, rfl, h⟩
    · rintro ⟨_, _, ⟨⟩, h⟩
      exact h

/-- After steps that yield nothing comes what follows them. -/
theorem yields_unit_bind_iff {steps : ExceptT ε (StateM σ) Unit}
    {next : Unit → ExceptT ε (StateM σ) β} :
    Yields (steps >>= next) s b t ↔ ∃ u, Yields steps s () u ∧ Yields (next ()) u b t := by
  rw [yields_bind_iff]
  exact ⟨fun ⟨_, h⟩ => h, fun h => ⟨(), h⟩⟩

theorem yields_lift_bind_iff {found : StateM σ α} :
    Yields (liftM found >>= next) s b t ↔ Yields (next (found.run s).1) (found.run s).2 b t :=
  Iff.rfl

theorem yields_map_iff {f : α → β} :
    Yields (f <$> steps) s b t ↔ ∃ a, Yields steps s a t ∧ b = f a := by
  rw [map_eq_pure_bind, yields_bind_iff]
  constructor
  · rintro ⟨a, u, hsteps, hpure⟩
    obtain ⟨rfl, rfl⟩ := yields_pure_iff.mp hpure
    exact ⟨a, hsteps, rfl⟩
  · rintro ⟨a, hsteps, rfl⟩
    exact ⟨a, t, hsteps, yields_pure_iff.mpr ⟨rfl, rfl⟩⟩

@[simp] theorem not_faults_pure : ¬ Faults (pure c : ExceptT ε (StateM σ) α) s fault t := by
  rintro ⟨⟩

theorem faults_throw_iff {cause : ε} :
    Faults (throw cause : ExceptT ε (StateM σ) α) s fault t ↔ fault = cause ∧ t = s := by
  constructor
  · rintro ⟨⟩
    exact ⟨rfl, rfl⟩
  · rintro ⟨rfl, rfl⟩
    rfl

theorem faults_bind_iff : Faults (steps >>= next) s fault t ↔
    Faults steps s fault t ∨ ∃ a u, Yields steps s a u ∧ Faults (next a) u fault t := by
  simp only [Faults, Yields]
  rw [run_bind]
  rcases steps.run.run s with ⟨result, u⟩
  cases result with
  | error cause =>
    constructor
    · rintro ⟨⟩
      exact .inl rfl
    · rintro (⟨⟨⟩⟩ | ⟨_, _, ⟨⟩, _⟩)
      rfl
  | ok a =>
    constructor
    · exact fun h => .inr ⟨a, u, rfl, h⟩
    · rintro (⟨⟨⟩⟩ | ⟨_, _, ⟨⟩, h⟩)
      exact h

theorem faults_lift_bind_iff {found : StateM σ α} :
    Faults (liftM found >>= next) s fault t ↔
      Faults (next (found.run s).1) (found.run s).2 fault t :=
  Iff.rfl

theorem yields_ofExcept_iff {found : Except ε α} :
    Yields (MonadExcept.ofExcept found : ExceptT ε (StateM σ) α) s a t ↔
      found = .ok a ∧ t = s := by
  cases found with
  | error fault => exact ⟨fun h => absurd h not_yields_throw, nofun⟩
  | ok c => simp [MonadExcept.ofExcept, eq_comm]

theorem faults_ofExcept_iff {found : Except ε α} :
    Faults (MonadExcept.ofExcept found : ExceptT ε (StateM σ) α) s fault t ↔
      found = .error fault ∧ t = s := by
  cases found with
  | error cause => simp [MonadExcept.ofExcept, faults_throw_iff, eq_comm]
  | ok c => simp [MonadExcept.ofExcept]

theorem yields_adapt_iff {f : ε → ε'} : Yields (steps.adapt f) s a t ↔ Yields steps s a t := by
  have hadapt : (steps.adapt f).run.run s =
      ((steps.run.run s).1.mapError f, (steps.run.run s).2) := rfl
  simp only [Yields]
  rw [hadapt]
  rcases steps.run.run s with ⟨result, u⟩
  cases result with
  | error fault =>
    constructor <;> rintro ⟨⟩
  | ok a =>
    constructor
    · rintro ⟨⟩
      rfl
    · rintro ⟨⟩
      rfl

end

/-! ## Steps one after another -/

inductive Passes (act : α → ExceptT ε (StateM σ) Unit) : List α → σ → σ → Prop
  | nil {s} : Passes act [] s s
  | cons {c cs s t u} : Yields (act c) s () t → Passes act cs t u → Passes act (c :: cs) s u

namespace Passes

variable {act : α → ExceptT ε (StateM σ) Unit} {c : α} {cs : List α} {s t : σ}

theorem nil_iff : Passes act [] s t ↔ t = s := by
  constructor
  · rintro ⟨⟩
    rfl
  · rintro rfl
    exact nil

theorem cons_iff :
    Passes act (c :: cs) s t ↔ ∃ u, Yields (act c) s () u ∧ Passes act cs u t := by
  constructor
  · rintro ⟨⟩
    exact ⟨_, ‹_›, ‹_›⟩
  · rintro ⟨u, hc, hcs⟩
    exact cons hc hcs

end Passes

theorem forM_flatMap {f : α → List β} {act : β → ExceptT ε (StateM σ) Unit} (as : List α) :
    (as.flatMap f).forM act = as.forM fun a => (f a).forM act := by
  simp only [List.forM_eq_forM]
  induction as with
  | nil => rfl
  | cons a as ih => rw [List.flatMap_cons, List.forM_append, List.forM_cons, ih]

theorem yields_forM_iff {act : α → ExceptT ε (StateM σ) Unit} {cs : List α} {s t : σ} :
    Yields (cs.forM act) s () t ↔ Passes act cs s t := by
  induction cs generalizing s with
  | nil => simp [Passes.nil_iff, List.forM]
  | cons c cs ih =>
    show Yields (act c >>= fun _ => cs.forM act) s () t ↔ _
    simp only [yields_unit_bind_iff, Passes.cons_iff, ih]

/-- Values yielded one after another. -/
theorem yields_mapM {act : α → ExceptT ε (StateM σ) β} {cs : List α} {bs : List β} {s t : σ}
    (h : Yields (cs.mapM act) s bs t) :
    List.Forall₂ (fun c b => ∃ u v, Yields (act c) u b v) cs bs := by
  induction cs generalizing s bs with
  | nil =>
    obtain ⟨rfl, -⟩ := yields_pure_iff.mp h
    exact .nil
  | cons c cs ih =>
    rw [List.mapM_cons] at h
    obtain ⟨b, u, hc, h⟩ := yields_bind_iff.mp h
    obtain ⟨bs, v, hcs, h⟩ := yields_bind_iff.mp h
    obtain ⟨rfl, rfl⟩ := yields_pure_iff.mp h
    exact .cons ⟨_, _, hc⟩ (ih hcs)

end MqttGateway
