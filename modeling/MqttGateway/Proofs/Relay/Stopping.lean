import MqttGateway.Proofs.Relay.Halting
/-!
# When a relay stops

Main statement: once one pump is over, the relay tells the other to stop exactly if the first has
reported its end. A pump that has crashed reports nothing, so after a crash the relay goes on for as
long as the other peer is silent; after any other end it comes to its own end in a bounded number of
steps.
-/
namespace MqttGateway.Relay

variable {σ : Type} {g : Gate σ} {s t : State σ} {c d : Direction}

/-! ## Reports -/

structure Reports (s : State σ) : Prop where
  exits : ∀ d fault, (d, fault) ∈ s.exits ↔ s.phase d = .ended fault
  stopped : s.stopped = true → s.exits ≠ [] ∨ s.isOver = true

theorem mem_report {p : Phase} {fault : Option PumpFault} :
    (d, fault) ∈ p.report?.toList.map (d, ·) ↔ p = .ended fault := by
  cases p <;> simp [Phase.report?, eq_comm]

theorem Reports.exits_ne_nil_iff (hs : Reports s) :
    s.exits ≠ [] ↔ ∃ d fault, s.phase d = .ended fault := by
  simp only [← hs.exits]
  constructor
  · intro hne
    obtain ⟨⟨d, fault⟩, hmem⟩ := List.exists_mem_of_ne_nil _ hne
    exact ⟨d, fault, hmem⟩
  · rintro ⟨d, fault, hmem⟩
    exact List.ne_nil_of_mem hmem

theorem Reports.moves (hs : Reports s) (h : Moves g d s t) : Reports t := by
  have hrunning := h.not_over
  obtain ⟨e, q, r, hturn, hperf, rfl⟩ := h
  constructor
  · intro c fault
    rw [State.enter_exits, hperf.exits, List.mem_append, hs.exits]
    by_cases hcd : c = d
    · -- a pump that moves has reported nothing so far
      subst hcd
      rw [mem_report, State.enter_phase]
      refine or_iff_right fun hended => ?_
      rw [hended] at hrunning
      cases hrunning
    · rw [hperf.enter_phase_of_ne q hcd]
      refine or_iff_left fun hmem => hcd ?_
      obtain ⟨_, -, heq⟩ := List.mem_map.mp hmem
      exact (congrArg Prod.fst heq).symm
  · rw [State.enter_stopped, hperf.stopped, State.enter_exits, hperf.exits]
    intro hstop
    rcases hs.stopped hstop with hne | hover
    · exact .inl (List.append_ne_nil_of_left_ne_nil hne _)
    · rw [(State.isOver_iff s).mp hover d] at hrunning
      cases hrunning

theorem Reports.of_eq (hs : Reports s) (hexits : t.exits = s.exits)
    (hstopped : t.stopped = s.stopped) (hphase : ∀ d, t.phase d = s.phase d) : Reports t := by
  constructor
  · simpa only [hexits, hphase] using hs.exits
  · simpa only [hexits, hstopped, State.isOver_iff, hphase] using hs.stopped

theorem Reports.supervise (hs : Reports s) : Reports (supervise s) := by
  constructor
  · simpa using hs.exits
  · unfold Relay.supervise
    split
    case isTrue => exact hs.stopped
    case isFalse h =>
      intro _
      by_cases hexits : s.exits = []
      · refine .inr ?_
        cases hover : s.isOver with
        | true => exact hover
        | false => exact absurd ⟨hexits, by rw [hover]; rfl⟩ h
      · exact .inl hexits

theorem run_reports (g : Gate σ) (session : Session) (hooks : σ) (events : List Event) :
    Reports (run g (.start session hooks) events) := by
  refine run_induction ?_ ?_ (fun _ _ _ => Reports.moves) (fun _ => Reports.supervise) ?_ events
  · refine ⟨fun d fault => ?_, nofun⟩
    cases d <;> exact ⟨nofun, nofun⟩
  · exact fun s d h hs => hs.of_eq (by simp) (by simp) (by simp)
  · intro s hs _ _ _
    have hend := conclude_concludes g s
    exact hs.of_eq hend.exits hend.stopped hend.phase

/-- While one pump runs, the other has reported its end unless it has crashed. -/
theorem Reports.exits_iff (hs : Reports s) (hover : (s.phase d).isOver = true)
    (hrunning : (s.phase d.opposite).isOver = false) : s.exits ≠ [] ↔ s.phase d ≠ .crashed := by
  rw [hs.exits_ne_nil_iff]
  constructor
  · rintro ⟨c, fault, hc⟩ hcrashed
    rcases c.eq_or_opposite d with rfl | rfl
    · rw [hcrashed] at hc
      cases hc
    · rw [hc] at hrunning
      cases hrunning
  · intro hne
    cases hp : s.phase d with
    | ended fault => exact ⟨d, fault, hp⟩
    | crashed => exact absurd hp hne
    | _ => rw [hp] at hover; cases hover

/-- While one pump runs, the relay is stopped by its supervision exactly if the other has ended
without a crash. -/
theorem Reports.stops_iff (hs : Reports s) (hover : (s.phase d).isOver = true)
    (hrunning : (s.phase d.opposite).isOver = false) :
    (Relay.supervise s).stopped = true ↔ s.phase d ≠ .crashed := by
  rw [← hs.exits_iff hover hrunning]
  constructor
  · intro hstop
    rcases hs.supervise.stopped hstop with hexits | hboth
    · simpa using hexits
    · rw [State.not_over_of_running (d := d.opposite) (by rwa [supervise_phase])] at hboth
      cases hboth
  · intro hne
    simp [Relay.supervise, hne]

/-! ## A crash -/

structure Stalled (d : Direction) (s : State σ) : Prop where
  crashed : s.phase d = .crashed
  waits : s.phase d.opposite = .reading
  silent : (s.source d.opposite).inlet.take = .waiting
  unreported : s.exits = []
  runs : s.stopped = false
  unfinished : s.outcome = none

/-- A relay is stalled as soon as one pump has crashed while the other waits. -/
theorem Reports.stalled (hs : Reports s) (hends : Ends s) (hcrashed : s.phase d = .crashed)
    (hwaits : s.phase d.opposite = .reading)
    (hsilent : (s.source d.opposite).inlet.take = .waiting) : Stalled d s := by
  have hrunning : (s.phase d.opposite).isOver = false := by rw [hwaits]; rfl
  have hnot : s.isOver = false := State.not_over_of_running hrunning
  have hexits : ¬ s.exits ≠ [] := by
    rw [hs.exits_iff (by rw [hcrashed]; rfl) hrunning]
    exact fun h => h hcrashed
  refine ⟨hcrashed, hwaits, hsilent, Decidable.not_not.mp hexits, ?_, ?_⟩
  · cases hstop : s.stopped with
    | false => rfl
    | true =>
      rcases hs.stopped hstop with h | h
      · exact absurd h hexits
      · rw [hnot] at h
        cases h
  · cases hout : s.outcome with
    | none => rfl
    | some _ =>
      have hover := (hends.ended (by rw [hout]; nofun)).1
      rw [hnot] at hover
      cases hover

theorem Stalled.not_over (hs : Stalled d s) : s.isOver = false :=
  State.not_over_of_running (d := d.opposite) (by rw [hs.waits]; rfl)

/-- Nothing but the other peer ends a stall. -/
theorem Stalled.step (hs : Stalled d s) {e : Event} (he : ∀ h, e ≠ .peer d.opposite h) :
    Stalled d (step g s e) := by
  cases e with
  | peer c h =>
    have hc : d.opposite ≠ c := fun hc => he h (hc ▸ rfl)
    obtain ⟨crashed, waits, silent, unreported, runs, unfinished⟩ := hs
    refine ⟨by simpa [Relay.step], by simpa [Relay.step], ?_, by simpa [Relay.step],
      by simpa [Relay.step], by simpa [Relay.step]⟩
    rwa [Relay.step, State.setSource_source_of_ne _ _ _ hc]
  | pump c =>
    have hrests : Rests c s := by
      rcases c.eq_or_opposite d with rfl | rfl
      · exact .inl (by rw [hs.crashed]; rfl)
      · exact .inr ⟨hs.waits, hs.runs, hs.silent⟩
    rwa [Relay.step, pump_rests g hrests]
  | supervise =>
    have hsame : supervise s = s := if_pos ⟨hs.unreported, by rw [hs.not_over]; rfl⟩
    rwa [Relay.step, hsame]
  | conclude =>
    have hsame : Relay.step g s .conclude = s := if_neg (by simp [hs.runs])
    rwa [hsame]

theorem Stalled.run (g : Gate σ) (hs : Stalled d s) {events : List Event}
    (quiet : ∀ h, Event.peer d.opposite h ∉ events) : Stalled d (run g s events) := by
  induction events generalizing s with
  | nil => exact hs
  | cons e events ih =>
    refine ih (hs.step fun h he => ?_) fun h he => quiet h (List.mem_cons_of_mem _ he)
    exact quiet h (he ▸ List.mem_cons_self)

/-! ## The end of one pump -/

/-- While one pump runs and the other is over, the relay is told to stop exactly if the latter did
not crash. It then comes to its outcome and calls the last hook, however its steps follow each
other. After a crash it is stuck for as long as the other pump finds nothing to read and its peer
does nothing. -/
theorem stops_unless_crashed (g : Gate σ) (session : Session) (hooks : σ) (events : List Event)
    (d : Direction) (hover : ((run g (.start session hooks) events).phase d).isOver = true)
    (hrunning : ((run g (.start session hooks) events).phase d.opposite).isOver = false) :
    let s := run g (.start session hooks) events
    ((supervise s).stopped = true ↔ s.phase d ≠ .crashed) ∧
    (s.phase d ≠ .crashed → ∀ more, 9 ≤ more.count (.pump d.opposite) →
      let t := step g (run g (supervise s) more) .conclude
      t.isOver = true ∧ t.outcome ≠ none ∧ ∃ reply, .disconnected t.session reply ∈ t.journal) ∧
    (s.phase d = .crashed → s.phase d.opposite = .reading →
      (s.source d.opposite).inlet.take = .waiting →
      ∀ more, (∀ h, .peer d.opposite h ∉ more) → Stalled d (run g s more)) := by
  intro s
  have hreports := run_reports g session hooks events
  have hiff := hreports.stops_iff hover hrunning
  refine ⟨hiff, ?_, ?_⟩
  · intro hcrashed more hmore t
    have hstop := hiff.mpr hcrashed
    have hboth : (run g (supervise s) more).isOver = true := by
      rw [State.isOver_iff]
      intro c
      rcases c.eq_or_opposite d with rfl | rfl
      · rw [run_over g more (by rwa [supervise_phase]), supervise_phase]
        exact hover
      · exact run_halts hstop hmore
    have hout : t.outcome ≠ none := step_conclude (run_stopped g more hstop) hboth
    have hrun : t =
        run g (.start session hooks) (events ++ .supervise :: (more ++ [.conclude])) := by
      rw [run_append, run, List.foldl_cons, ← run, run_append]
      rfl
    rw [hrun] at hout ⊢
    obtain ⟨hover', j, last, reply, hj, -, -⟩ := (run_ends g session hooks _).ended hout
    exact ⟨hover', hout, reply, by simp [hj]⟩
  · intro hcrashed hwaits hsilent more
    exact (hreports.stalled (run_ends g session hooks events) hcrashed hwaits hsilent).run g

def permissive : Gate Unit :=
  ⟨Policy.handler {} Unit, none⟩

def closing : List Event :=
  [.peer .toBroker .halfClose, .pump .toBroker]

theorem stops_after_closing :
    let s := run permissive (.start {} ()) closing
    (supervise s).stopped = true ∧
    (step permissive (run permissive (supervise s) (List.replicate 9 (.pump .toClient)))
      .conclude).outcome ≠ none := by
  have hended : (run permissive (.start {} ()) closing).phase .toBroker ≠ .crashed := by
    rw [show (run permissive (.start {} ()) closing).phase .toBroker = .ended none from rfl]
    nofun
  obtain ⟨hiff, hends, -⟩ :=
    stops_unless_crashed permissive {} () closing .toBroker rfl rfl
  exact ⟨hiff.mpr hended, (hends hended _ (by decide)).2.1⟩

/-- The client sends a PUBACK without a packet id, which crashes the pump. -/
def shortAck : List Event :=
  [.peer .toBroker (.arrive [0x40, 0x00]), .pump .toBroker]

theorem stalls_after_shortAck :
    ((run permissive (.start {} ()) shortAck).phase .toBroker).isOver = true ∧
    ∀ more, (∀ h, .peer .toClient h ∉ more) →
      let t := run permissive (run permissive (.start {} ()) shortAck) more
      t.phase .toClient = .reading ∧ t.stopped = false ∧ t.outcome = none := by
  have hstalled : Stalled .toBroker (run permissive (.start {} ()) shortAck) :=
    ⟨rfl, rfl, rfl, rfl, rfl, rfl⟩
  refine ⟨by rw [hstalled.crashed]; rfl, fun more hquiet => ?_⟩
  have h := hstalled.run permissive hquiet
  exact ⟨h.waits, h.runs, h.unfinished⟩

end MqttGateway.Relay
