import MqttGateway.Proofs.Relay.Halting
/-!
# The last hook

Main statement: a relay calls its last hook exactly once, when it comes to its end: with the session
as it is in the end, after all other calls and behind the last octets that it writes. However its
pumps ended, it comes to that end once both are over.
-/
namespace MqttGateway.Relay

variable {σ : Type} {g : Gate σ} {s t u : State σ} {d : Direction}

/-! ## Nothing comes after the end -/

structure Still (s t : State σ) : Prop where
  journal : t.journal = s.journal
  hooks : t.hooks = s.hooks
  session : t.session = s.session
  exits : t.exits = s.exits
  outcome : t.outcome = s.outcome
  phase : ∀ d, t.phase d = s.phase d
  written : ∀ d, (t.sink d).outlet.written = (s.sink d).outlet.written

theorem Still.refl (s : State σ) : Still s s :=
  ⟨rfl, rfl, rfl, rfl, rfl, fun _ => rfl, fun _ => rfl⟩

theorem Still.trans (hst : Still s t) (htu : Still t u) : Still s u where
  journal := htu.journal.trans hst.journal
  hooks := htu.hooks.trans hst.hooks
  session := htu.session.trans hst.session
  exits := htu.exits.trans hst.exits
  outcome := htu.outcome.trans hst.outcome
  phase := fun d => (htu.phase d).trans (hst.phase d)
  written := fun d => (htu.written d).trans (hst.written d)

theorem Still.isOver (h : Still s t) (hover : s.isOver = true) : t.isOver = true := by
  rw [State.isOver_iff] at hover ⊢
  simpa only [h.phase] using hover

theorem peer_still (s : State σ) (d : Direction) (h : Happening) :
    Still s (s.setSource d ((s.source d).after h)) := by
  refine ⟨by simp, by cases d <;> rfl, by simp, by simp, by simp, by simp, fun c => ?_⟩
  cases c <;> cases d <;>
    simp [State.sink, State.source, State.setSource, Direction.opposite, after_written]

theorem supervise_still (s : State σ) : Still s (supervise s) :=
  ⟨by simp, by simp, by simp, by simp, by simp, by simp, fun d => by simp [State.sink]⟩

/-- A relay that has ended does nothing more. -/
theorem step_still (hout : s.outcome ≠ none) (hover : s.isOver = true) (e : Event) :
    Still s (step g s e) := by
  cases e with
  | peer d h => exact peer_still s d h
  | pump d =>
    rw [step, pump_rests g (.inl ((State.isOver_iff s).mp hover d))]
    exact .refl s
  | supervise => exact supervise_still s
  | conclude =>
    have hsame : step g s .conclude = s := by
      rw [step, if_neg]
      simp [hout]
    rw [hsame]
    exact .refl s

theorem run_still (g : Gate σ) (hout : s.outcome ≠ none) (hover : s.isOver = true)
    (events : List Event) : Still s (run g s events) := by
  induction events generalizing s with
  | nil => exact .refl s
  | cons e events ih =>
    have hstep := step_still (g := g) hout hover e
    exact hstep.trans (ih (hstep.outcome ▸ hout) (hstep.isOver hover))

/-! ## The step that ends a relay -/

/-- Only one step ends a relay. -/
theorem step_ends {e : Event} (hrunning : s.outcome = none) (hout : (step g s e).outcome ≠ none) :
    e = .conclude ∧ s.stopped = true ∧ s.isOver = true ∧ step g s e = (conclude g s).1 := by
  cases e with
  | peer d h => exact absurd (by simpa [step] using hrunning) hout
  | pump d =>
    rcases pump_moves g d s with h | ⟨e, q, r, -, hperf, h⟩
    · rw [step, pump_rests g h] at hout
      exact absurd hrunning hout
    · rw [step, h, State.enter_outcome, hperf.outcome] at hout
      exact absurd hrunning hout
  | supervise => exact absurd (by simpa [step] using hrunning) hout
  | conclude =>
    refine ⟨rfl, ?_⟩
    simp only [step] at hout ⊢
    split
    case isTrue h =>
      simp only [Bool.and_eq_true] at h
      exact ⟨h.1.1, h.1.2, rfl⟩
    case isFalse h =>
      rw [if_neg h] at hout
      exact absurd hrunning hout

/-- A run whose relay has ended has a step that ended it, and none after it did anything. -/
theorem run_concluded (g : Gate σ) (session : Session) (hooks : σ) {events : List Event}
    (hout : (run g (.start session hooks) events).outcome ≠ none) :
    ∃ before after, events = before ++ .conclude :: after ∧
      (run g (.start session hooks) before).outcome = none ∧
      (run g (.start session hooks) before).isOver = true ∧
      Still (conclude g (run g (.start session hooks) before)).1
        (run g (.start session hooks) events) := by
  induction events using List.reverseRecOn with
  | nil => exact absurd rfl hout
  | append_singleton events e ih =>
    have hends := run_ends g session hooks events
    by_cases hrunning : (run g (.start session hooks) events).outcome = none
    · -- the last event is the one that ended it
      rw [run_snoc] at hout
      obtain ⟨rfl, -, hover, hstep⟩ := step_ends hrunning hout
      refine ⟨events, [], rfl, hrunning, hover, ?_⟩
      rw [run_snoc, hstep]
      exact .refl _
    · obtain ⟨before, after, hevents, hbefore, hover, hstill⟩ := ih hrunning
      refine ⟨before, after ++ [e], by simp [hevents], hbefore, hover, hstill.trans ?_⟩
      rw [run_snoc]
      exact step_still hrunning (hends.ended hrunning).1 e

/-! ## The call of the last hook -/

def partings (j : List Entry) : List Session :=
  j.filterMap fun
    | .disconnected session _ => some session
    | _ => none

theorem partings_append (j k : List Entry) : partings (j ++ k) = partings j ++ partings k :=
  List.filterMap_append

theorem partings_running {j : List Entry} (h : ∀ e ∈ j, e.isLast = false) : partings j = [] := by
  refine List.filterMap_eq_nil_iff.mpr fun e he => ?_
  have hrunning := h e he
  cases e with
  | disconnected session reply => cases hrunning
  | _ => rfl

/-- Whatever the order of its steps, a relay calls its last hook when it ends and not before. The call
is made with the session as it is in the end, to the hooks as all other calls have left them, and all
that was written was written before. Nothing happens afterwards. A relay whose pumps are over,
however they ended, comes to its end. -/
theorem disconnects_once (g : Gate σ) (session : Session) (hooks : σ) (events : List Event) :
    let s := run g (.start session hooks) events
    (s.outcome = none → partings s.journal = []) ∧
    (s.outcome ≠ none → partings s.journal = [s.session] ∧
      (∃ earlier reply before, s.journal = earlier ++ [.disconnected s.session reply] ∧
        Answered g hooks earlier before ∧
        g.handler.disconnected s.session before = (reply, s.hooks) ∧
        ∀ d, (s.sink d).outlet.written = earlier.flatMap (·.octetsTo d)) ∧
      ∀ more, Still s (run g s more)) ∧
    (s.isOver = true → (step g (supervise s) .conclude).outcome ≠ none) := by
  intro s
  have hends := run_ends g session hooks events
  have hanswered := run_answered g session hooks events
  have hwrote := run_wrote g session hooks events
  refine ⟨fun hout => partings_running (hends.running hout), fun hout => ?_, fun hover => ?_⟩
  · obtain ⟨hover, j, last, reply, hj, hrunning, hlast⟩ := hends.ended hout
    have hnone : partings last = [] := by rcases hlast with rfl | rfl <;> rfl
    refine ⟨?_, ⟨j ++ last, reply, ?_⟩, run_still g hout hover⟩
    · rw [hj, partings_append, partings_append, partings_running hrunning, hnone]
      rfl
    · rw [hj] at hanswered
      obtain ⟨before, hbefore, hcall⟩ := hanswered.of_snoc
      refine ⟨before, hj, hbefore, hcall, fun d => ?_⟩
      rw [hwrote d, hj, List.flatMap_append]
      exact List.append_nil _
  · refine step_conclude ?_ ?_
    · simp [supervise, hover]
    · rw [State.isOver_iff] at hover ⊢
      simpa using hover

end MqttGateway.Relay
