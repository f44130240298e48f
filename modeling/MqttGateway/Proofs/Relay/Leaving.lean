import MqttGateway.Proofs.Relay.Concluding
import MqttGateway.Proofs.Relay.Forwarding
import MqttGateway.Proofs.Relay.Stopping
/-!
# Leaving the broker

Main statement: as long as the broker can be written to, a relay that has ended has left it with a
DISCONNECT exactly if a delivery was denied before the pump to the broker had an error to report,
and this pump did not crash. Where either fails the denial is forgotten.
-/
namespace MqttGateway.Relay

variable {σ : Type} {g : Gate σ} {s t : State σ} {c d : Direction}

def Denied (j : List Entry) : Prop :=
  ∃ seen filters causes,
    .called .toClient (.authorizeSubscribe seen filters (.refused causes)) ∈ j

theorem denied_append (j k : List Entry) : Denied (j ++ k) ↔ Denied j ∨ Denied k := by
  constructor
  · rintro ⟨seen, filters, causes, h⟩
    rcases List.mem_append.mp h with h | h
    · exact .inl ⟨seen, filters, causes, h⟩
    · exact .inr ⟨seen, filters, causes, h⟩
  · rintro (⟨seen, filters, causes, h⟩ | ⟨seen, filters, causes, h⟩)
    · exact ⟨seen, filters, causes, List.mem_append_left _ h⟩
    · exact ⟨seen, filters, causes, List.mem_append_right _ h⟩

/-! ## Who reports what -/

theorem Turn.denied_iff {connected : Bool} {p q : Phase} {e : Option Entry}
    (h : Turn g connected d p e q) :
    Denied e.toList ↔ ∃ causes, q = .ended (some (.deliveryDenied causes)) := by
  cases h with
  | halt error => cases error <;> simp [Denied]
  | authorize hauth _ =>
    cases hauth with
    | connect reply => cases reply <;> simp [Denied, Phase.ofReply]
    | publish reply => cases reply <;> simp [Denied, Phase.ofReply]
    | subscribe reply =>
      cases reply with
      | done filters => by_cases h : filters = [] <;> simp [Denied, Phase.ofReply, h]
      | _ => simp [Denied, Phase.ofReply]
    | delivery reply => cases reply <;> simp [Denied, Phase.ofReply]
  | intercept reply _ => cases reply <;> simp [Denied, Phase.ofReply]
  | @notify _ _ call reply hnotifies =>
    have hcall : ¬ Denied [.called d call] := by
      rintro ⟨seen, filters, causes, hmem⟩
      cases List.mem_singleton.mp hmem
      cases hnotifies.isGate
    refine iff_of_false hcall ?_
    cases reply <;> simp [Phase.ofReply]
  | write => cases d <;> simp [Denied, Phase.afterWriting]
  | _ => simp [Denied]

theorem Performs.eq_toClient {e : Option Entry} (h : Performs g d s e t)
    (hdenied : Denied e.toList) : d = .toClient := by
  obtain ⟨seen, filters, causes, hmem⟩ := hdenied
  cases h <;> simp_all

structure Accountable (s : State σ) : Prop where
  reports : Reports s
  denied : Denied s.journal ↔ ∃ causes, s.phase .toClient = .ended (some (.deliveryDenied causes))
  others : ∀ causes, s.phase .toBroker ≠ .ended (some (.deliveryDenied causes))

theorem Accountable.of_eq (hs : Accountable s) (hreports : Reports t)
    (hdenied : Denied t.journal ↔ Denied s.journal) (hphase : ∀ d, t.phase d = s.phase d) :
    Accountable t := by
  refine ⟨hreports, ?_, ?_⟩
  · simpa only [hdenied, hphase] using hs.denied
  · simpa only [hphase] using hs.others

theorem Accountable.moves (hs : Accountable s) (h : Moves g d s t) : Accountable t := by
  have hrunning : ∀ fault, s.phase d ≠ .ended (some fault) := by
    intro fault hended
    have hover := h.not_over
    rw [hended] at hover
    cases hover
  have hreports := hs.reports.moves h
  obtain ⟨e, q, r, hturn, hperf, rfl⟩ := h
  refine ⟨hreports, ?_, ?_⟩
  · rw [hperf.enter_journal, denied_append, hs.denied, hturn.denied_iff]
    cases d with
    | toClient =>
      rw [State.enter_phase]
      exact or_iff_right fun ⟨causes, hended⟩ => hrunning _ hended
    | toBroker =>
      rw [hperf.enter_phase_of_ne q (by decide), ← hturn.denied_iff]
      exact or_iff_left fun hdenied => by cases hperf.eq_toClient hdenied
  · intro causes hended
    cases d with
    | toClient =>
      rw [hperf.enter_phase_of_ne q (by decide)] at hended
      exact hs.others causes hended
    | toBroker =>
      rw [State.enter_phase] at hended
      cases hperf.eq_toClient (hturn.denied_iff.mpr ⟨causes, hended⟩)

theorem run_accountable (g : Gate σ) (session : Session) (hooks : σ) (events : List Event) :
    Accountable (run g (.start session hooks) events) := by
  refine run_induction ?_ ?_ (fun _ _ _ => Accountable.moves) ?_ ?_ events
  · refine ⟨run_reports g session hooks [], ?_, nofun⟩
    exact ⟨fun ⟨_, _, _, h⟩ => absurd h List.not_mem_nil, nofun⟩
  · intro s d h hs
    exact hs.of_eq (hs.reports.of_eq (by simp) (by simp) (by simp)) (by simp) (by simp)
  · exact fun s hs => hs.of_eq hs.reports.supervise (by simp) (by simp)
  · intro s hs _ _ _
    have hend := conclude_concludes g s
    obtain ⟨k, hk, hlast⟩ := hend.journal
    refine hs.of_eq (hs.reports.of_eq hend.exits hend.stopped hend.phase) ?_ hend.phase
    rw [hk, denied_append]
    refine or_iff_left fun ⟨seen, filters, causes, hmem⟩ => ?_
    cases hlast _ hmem

/-! ## The first error -/

theorem firstFault?_mem {fault : PumpFault} (h : firstFault? s = some (d, fault)) :
    (d, some fault) ∈ s.exits := by
  obtain ⟨⟨c, report⟩, hmem, hreport⟩ := List.exists_of_findSome?_eq_some h
  cases report with
  | none => cases hreport
  | some fault' =>
    cases hreport
    exact hmem

theorem firstFault?_eq_none {fault : PumpFault} (h : firstFault? s = none) :
    (d, some fault) ∉ s.exits :=
  fun hmem => by cases List.findSome?_eq_none_iff.mp h _ hmem

theorem firstFault?_of_prefix {e : Direction × PumpFault} (h : s.exits <+: t.exits)
    (hs : firstFault? s = some e) : firstFault? t = some e := by
  obtain ⟨more, hmore⟩ := h
  unfold firstFault? at hs ⊢
  rw [← hmore, List.findSome?_append, hs, Option.some_or]

theorem run_exits (g : Gate σ) (s : State σ) (events : List Event) :
    s.exits <+: (run g s events).exits := by
  refine run_induction (P := fun t => s.exits <+: t.exits) List.prefix_rfl ?_ ?_ ?_ ?_ events
  · intro t d h ht
    simpa using ht
  · rintro t _ d ht ⟨e, p, r, -, hperf, rfl⟩
    rw [State.enter_exits, hperf.exits]
    exact ht.trans (List.prefix_append ..)
  · intro t ht
    simpa using ht
  · intro t ht _ _ _
    rw [(conclude_concludes g t).exits]
    exact ht

def FailsFirst (g : Gate σ) (s : State σ) (events : List Event) (d : Direction)
    (fault : PumpFault) : Prop :=
  ∃ before after, events = before ++ .pump d :: after ∧
    (∀ c fault, (run g s before).phase c ≠ .ended (some fault)) ∧
    (pump g d (run g s before)).phase d = .ended (some fault)

theorem Reports.firstFault?_eq_none_iff (hs : Reports s) :
    Relay.firstFault? s = none ↔ ∀ d fault, s.phase d ≠ .ended (some fault) := by
  constructor
  · intro hnone d fault hended
    exact firstFault?_eq_none hnone ((hs.exits d _).mpr hended)
  · intro hno
    cases hfirst : Relay.firstFault? s with
    | none => rfl
    | some e => exact absurd ((hs.exits _ _).mp (firstFault?_mem hfirst)) (hno _ _)

/-- The error of a pump that ends is the first one if there was none before. -/
theorem Reports.firstFault?_of_step (hs : Reports s) (ht : Reports (step g s (.pump d)))
    {fault : PumpFault} (hnone : Relay.firstFault? s = none)
    (hended : (step g s (.pump d)).phase d = .ended (some fault)) :
    Relay.firstFault? (step g s (.pump d)) = some (d, fault) := by
  cases hfirst : Relay.firstFault? (step g s (.pump d)) with
  | none => exact absurd hended (ht.firstFault?_eq_none_iff.mp hfirst d fault)
  | some e =>
    obtain ⟨c, fault'⟩ := e
    have hc := (ht.exits c _).mp (firstFault?_mem hfirst)
    by_cases hcd : c = d
    · subst hcd
      cases hended.symm.trans hc
      rfl
    · have he : Event.pump d ≠ .pump c := fun h => hcd (Event.pump.inj h).symm
      rw [step_phase he] at hc
      exact absurd hc (hs.firstFault?_eq_none_iff.mp hnone c fault')

/-- The first error of a run is that of the pump that fails first. -/
theorem firstFault?_iff_failsFirst (g : Gate σ) (session : Session) (hooks : σ)
    (events : List Event) {fault : PumpFault} :
    firstFault? (run g (.start session hooks) events) = some (d, fault) ↔
      FailsFirst g (.start session hooks) events d fault := by
  constructor
  · intro hfirst
    induction events using List.reverseRecOn with
    | nil => cases hfirst
    | append_singleton events e ih =>
      have hbefore := run_reports g session hooks events
      have hafter := run_reports g session hooks (events ++ [e])
      cases hearlier : firstFault? (run g (.start session hooks) events) with
      | some e' =>
        -- the error was there before the last event
        have hkept := firstFault?_of_prefix (run_exits g _ [e]) hearlier
        rw [← run_append, hfirst] at hkept
        cases hkept
        obtain ⟨before, after, rfl, hno, hended⟩ := ih hearlier
        exact ⟨before, after ++ [e], by simp, hno, hended⟩
      | none =>
        -- it came with the last event, which is then a step of the pump
        have hended := (hafter.exits d _).mp (firstFault?_mem hfirst)
        rw [run_snoc] at hended
        have hno := hbefore.firstFault?_eq_none_iff.mp hearlier
        have he : e = .pump d := Decidable.byContradiction fun hne => by
          rw [step_phase hne] at hended
          exact hno d fault hended
        subst he
        exact ⟨events, [], rfl, hno, hended⟩
  · rintro ⟨before, after, rfl, hno, hended⟩
    have hbefore := run_reports g session hooks before
    have hafter := run_reports g session hooks (before ++ [.pump d])
    rw [run_snoc] at hafter
    have hnone := hbefore.firstFault?_eq_none_iff.mpr hno
    have hfirst := hbefore.firstFault?_of_step hafter hnone hended
    rw [run_append]
    exact firstFault?_of_prefix (run_exits g _ after) hfirst

/-- At some moment of the run a delivery had been denied while the pump to the broker had no error
to report. -/
def DeniedFirst (g : Gate σ) (s : State σ) (events : List Event) : Prop :=
  ∃ before after, events = before ++ after ∧ Denied (run g s before).journal ∧
    ∀ fault, (run g s before).phase .toBroker ≠ .ended (some fault)

/-- A denial that comes while the other pump has no error to report is the first error. -/
theorem Accountable.firstFault? (hs : Accountable s) (hdenied : Denied s.journal)
    (hno : ∀ fault, s.phase .toBroker ≠ .ended (some fault)) :
    ∃ causes, firstFault? s = some (.toClient, .deliveryDenied causes) := by
  obtain ⟨causes, hended⟩ := hs.denied.mp hdenied
  have hmem := (hs.reports.exits .toClient _).mpr hended
  cases hfirst : Relay.firstFault? s with
  | none => exact absurd hmem (firstFault?_eq_none hfirst)
  | some e =>
    obtain ⟨d, fault⟩ := e
    have hphase := (hs.reports.exits d _).mp (firstFault?_mem hfirst)
    cases d with
    | toBroker => exact absurd hphase (hno fault)
    | toClient =>
      cases hended.symm.trans hphase
      exact ⟨causes, rfl⟩

theorem isDelivery_iff {fault : PumpFault} :
    fault.isDelivery = true ↔ ∃ causes, fault = .deliveryDenied causes := by
  cases fault <;> simp [PumpFault.isDelivery]

/-- The first error of a run is a denial exactly if the denial came before the other pump had an
error to report. -/
theorem firstFault?_isDelivery_iff (g : Gate σ) (session : Session) (hooks : σ)
    (events : List Event) :
    (∃ e, firstFault? (run g (.start session hooks) events) = some e ∧ e.2.isDelivery = true) ↔
      DeniedFirst g (.start session hooks) events := by
  constructor
  · rintro ⟨⟨d, fault⟩, hfirst, hdelivery⟩
    obtain ⟨causes, rfl⟩ := isDelivery_iff.mp hdelivery
    obtain ⟨before, after, rfl, hno, hended⟩ :=
      (firstFault?_iff_failsFirst g session hooks events).mp hfirst
    have hafter := run_accountable g session hooks (before ++ [.pump d])
    rw [run_snoc] at hafter
    cases d with
    | toBroker => exact absurd hended (hafter.others causes)
    | toClient =>
      refine ⟨before ++ [.pump .toClient], after, by simp, ?_, fun fault hother => ?_⟩
      · rw [run_snoc]
        exact hafter.denied.mpr ⟨causes, hended⟩
      · rw [run_snoc, step_phase (by decide)] at hother
        exact hno .toBroker fault hother
  · rintro ⟨before, after, rfl, hdenied, hno⟩
    obtain ⟨causes, hfirst⟩ := (run_accountable g session hooks before).firstFault? hdenied hno
    rw [run_append]
    exact ⟨_, firstFault?_of_prefix (run_exits g _ after) hfirst, rfl⟩

/-! ## The last DISCONNECT -/

/-! ### Writing to a peer -/

theorem after_broken {link : Link} {h : Happening} (hh : ∀ text, h ≠ .failWriting text) :
    (link.after h).outlet.broken = link.outlet.broken := by
  cases h with
  | arrive octets =>
    simp only [Link.after, Link.arrive]
    split <;> rfl
  | halfClose =>
    simp only [Link.after, Link.halfClose]
    split <;> rfl
  | failReading text => rfl
  | failWriting text => exact absurd rfl (hh text)

theorem Performs.broken {e : Option Entry} (h : Performs g c s e t) :
    (t.sink d).outlet.broken = (s.sink d).outlet.broken := by
  cases h with
  | take => cases c <;> cases d <;> rfl
  | write _ hopen =>
    cases c <;> cases d <;> first | rfl | exact hopen.symm
  | _ => cases d <;> rfl

theorem leaveBroker_broken (s : State σ) (d : Direction) :
    ((leaveBroker s).1.sink d).outlet.broken = (s.sink d).outlet.broken := by
  cases hleaves : leavesBroker s with
  | false => rw [leaveBroker_of_stays hleaves]
  | true =>
    cases hbroken : s.broker.outlet.broken with
    | some text => rw [leaveBroker_of_broken hleaves hbroken]
    | none =>
      rw [leaveBroker_of_open hleaves hbroken]
      cases d with
      | toBroker => exact hbroken.symm
      | toClient => rfl

/-- Only a peer that breaks its connection decides whether it can be written to. -/
theorem step_broken {e : Event} (he : ∀ text, e ≠ .peer d.opposite (.failWriting text)) :
    ((step g s e).sink d).outlet.broken = (s.sink d).outlet.broken := by
  cases e with
  | peer c h =>
    by_cases hc : c = d.opposite
    · subst hc
      rw [step, State.sink, State.setSource_source]
      exact after_broken fun text hh => he text (hh ▸ rfl)
    · rw [step, State.sink, State.setSource_source_of_ne _ _ _ (Ne.symm hc), State.sink]
  | pump c =>
    rcases pump_moves g c s with h | ⟨e, q, r, -, hperf, h⟩
    · rw [step, pump_rests g h]
    · rw [step, h, State.sink, State.enter_source]
      exact hperf.broken
  | supervise => simp [step, State.sink]
  | conclude =>
    simp only [step]
    split
    case isFalse => rfl
    case isTrue =>
      obtain ⟨reply, hooks, outcome, -, h⟩ := conclude_cases g s
      rw [h, State.sink, State.note_source]
      exact leaveBroker_broken s d

theorem run_broken {events : List Event}
    (hwrites : ∀ text, .peer d.opposite (.failWriting text) ∉ events)
    (hs : (s.sink d).outlet.broken = none) : ((run g s events).sink d).outlet.broken = none := by
  induction events generalizing s with
  | nil => exact hs
  | cons e events ih =>
    have hstep : ((step g s e).sink d).outlet.broken = (s.sink d).outlet.broken :=
      step_broken fun text h => hwrites text (h ▸ List.mem_cons_self)
    exact ih (fun text h => hwrites text (List.mem_cons_of_mem _ h)) (hstep.trans hs)

/-- Nothing mends a broken connection. -/
theorem run_stays_broken {text : String} {events : List Event}
    (hs : (s.sink d).outlet.broken = some text) :
    ((run g s events).sink d).outlet.broken = some text := by
  induction events generalizing s with
  | nil => exact hs
  | cons e events ih =>
    refine ih (s := step g s e) ?_
    by_cases he : ∃ text, e = .peer d.opposite (.failWriting text)
    · obtain ⟨text', rfl⟩ := he
      have hlink : (s.source d.opposite).outlet.broken = some text := hs
      rw [step, State.sink, State.setSource_source]
      simp [Link.after, Link.failWriting, hlink]
    · exact (step_broken fun text h => he ⟨text, h⟩).trans hs

/-! ### The end -/

theorem leavesBroker_iff (s : State σ) : leavesBroker s = true ↔
    s.phase .toBroker ≠ .crashed ∧ ∃ e, firstFault? s = some e ∧ e.2.isDelivery = true := by
  have hphase : s.phase .toBroker = s.toBroker := rfl
  unfold leavesBroker
  cases firstFault? s <;> simp [hphase]

theorem leavesBroker_congr (hexits : t.exits = s.exits) (hphase : ∀ d, t.phase d = s.phase d) :
    leavesBroker t = leavesBroker s := by
  have hbroker : t.toBroker = s.toBroker := hphase .toBroker
  simp only [leavesBroker, Relay.firstFault?, hexits, hbroker]

theorem conclude_left (hbroken : s.broker.outlet.broken = none)
    (hrunning : ∀ e ∈ s.journal, e.isLast = false) :
    .left farewell ∈ (conclude g s).1.journal ↔ leavesBroker s = true := by
  have hno : .left farewell ∉ s.journal := fun h => by cases hrunning _ h
  obtain ⟨reply, hooks, outcome, -, h⟩ := conclude_cases g s
  rw [h]
  cases hleaves : leavesBroker s with
  | true =>
    rw [leaveBroker_of_open hleaves hbroken]
    simp
  | false =>
    rw [leaveBroker_of_stays hleaves]
    simp [hno]

theorem run_left (g : Gate σ) (session : Session) (hooks : σ) {events : List Event}
    (hwrites : ∀ text, .peer .toClient (.failWriting text) ∉ events)
    (hout : (run g (.start session hooks) events).outcome ≠ none) :
    .left farewell ∈ (run g (.start session hooks) events).journal ↔
      leavesBroker (run g (.start session hooks) events) = true := by
  obtain ⟨before, after, rfl, hrunning, -, hstill⟩ := run_concluded g session hooks hout
  have hbefore : ∀ text, .peer .toClient (.failWriting text) ∉ before :=
    fun text h => hwrites text (List.mem_append_left _ h)
  have hends := run_ends g session hooks before
  have hbroken := run_broken (g := g) (s := .start session hooks) (d := .toBroker) hbefore rfl
  have hend := conclude_concludes g (run g (.start session hooks) before)
  rw [hstill.journal, conclude_left hbroken (hends.running hrunning),
    leavesBroker_congr (hstill.exits.trans hend.exits)
      fun d => (hstill.phase d).trans (hend.phase d)]

def Leaves (s : State σ) : Prop :=
  .left farewell ∈ s.journal ∧
    (s.sink .toBroker).outlet.written =
      (forwarded .toBroker s.journal).flatMap (·.2) ++ farewell

def Stays (s : State σ) : Prop :=
  (∀ octets, .left octets ∉ s.journal) ∧
    (s.sink .toBroker).outlet.written = (forwarded .toBroker s.journal).flatMap (·.2)

theorem Ends.stays (hs : Ends s) (hwrote : Wrote s) (hout : s.outcome = none) : Stays s := by
  have hno (octets : Octets) : .left octets ∉ s.journal := fun h => by
    cases hs.running hout _ h
  refine ⟨hno, ?_⟩
  rw [hwrote, octetsTo_eq_forwarded .toBroker (hs.running hout)]

theorem Ends.leaves_or_stays (hs : Ends s) (hwrote : Wrote s) : Leaves s ∨ Stays s := by
  by_cases hout : s.outcome = none
  · exact .inr (hs.stays hwrote hout)
  · obtain ⟨-, j, last, reply, hj, hrunning, hlast⟩ := hs.ended hout
    have hwritten := octetsTo_eq_forwarded .toBroker hrunning
    have hsink := hwrote .toBroker
    rcases hlast with rfl | rfl
    · refine .inr ⟨fun octets h => ?_, ?_⟩
      · rw [hj] at h
        have hmem : .left octets ∈ j := by simpa using h
        cases hrunning _ hmem
      · rw [hsink]
        simpa [hj, forwarded, Entry.octetsTo] using hwritten
    · refine .inl ⟨by simp [hj], ?_⟩
      rw [hsink]
      simpa [hj, forwarded, Entry.octetsTo] using hwritten

/-- A relay to whose broker nothing keeps it from writing leaves it exactly if a delivery was denied
before the pump to the broker had an error to report and this pump did not crash. It comes to its
end after every denial. -/
theorem leaves_iff_denied_first (g : Gate σ) (session : Session) (hooks : σ) (events : List Event)
    (hwrites : ∀ text, .peer .toClient (.failWriting text) ∉ events) :
    let s := run g (.start session hooks) events
    (Leaves s ∨ Stays s) ∧
    (s.outcome = none → Stays s) ∧
    (s.outcome ≠ none → (Leaves s ↔
      s.phase .toBroker ≠ .crashed ∧ DeniedFirst g (.start session hooks) events)) ∧
    (DeniedFirst g (.start session hooks) events → Denied s.journal) ∧
    (Denied s.journal → ∀ more, 9 ≤ more.count (.pump .toBroker) →
      (step g (run g (supervise s) more) .conclude).outcome ≠ none) := by
  intro s
  have hends := run_ends g session hooks events
  have hwrote := run_wrote g session hooks events
  have hboth := hends.leaves_or_stays hwrote
  refine ⟨hboth, hends.stays hwrote, fun hout => ?_, ?_, fun hdenied more hmore => ?_⟩
  · rw [← firstFault?_isDelivery_iff, ← leavesBroker_iff, ← run_left g session hooks hwrites hout]
    exact ⟨fun h => h.1, fun h => hboth.resolve_right fun hstays => hstays.1 _ h⟩
  · rintro ⟨before, after, hevents, hdenied, -⟩
    obtain ⟨more, hmore⟩ := run_journal g (run g (.start session hooks) before) after
    rw [← run_append, ← hevents] at hmore
    rw [← hmore, denied_append]
    exact .inl hdenied
  · obtain ⟨causes, hended⟩ := (run_accountable g session hooks events).denied.mp hdenied
    have hstop : (supervise s).stopped = true := by
      have hexits : s.exits ≠ [] :=
        (run_reports g session hooks events).exits_ne_nil_iff.mpr ⟨.toClient, _, hended⟩
      simp [supervise, hexits]
    have hover : ((supervise s).phase .toClient).isOver = true := by
      rw [supervise_phase, hended]
      rfl
    refine step_conclude (run_stopped g more hstop) ((State.isOver_iff _).mpr fun d => ?_)
    cases d with
    | toBroker => exact run_halts hstop hmore
    | toClient => rwa [run_over g more hover]

def secluded : Gate Unit :=
  ⟨{ Policy.handler {} Unit with authorizeSubscribe := fun _ _ s => (.refused ["secluded"], s) },
    none⟩

def delivering : List Event :=
  [.peer .toClient (.arrive [0x30, 0x03, 0x00, 0x01, 0x74]), .pump .toClient, .pump .toClient,
    .pump .toClient]

def parting : List Event :=
  [.supervise, .pump .toBroker, .conclude]

theorem leaves_after_denial :
    (∀ text, .peer .toClient (.failWriting text) ∉ delivering ++ parting) ∧
    (run secluded (.start {} ()) (delivering ++ parting)).outcome ≠ none ∧
    Leaves (run secluded (.start {} ()) (delivering ++ parting)) := by
  have hwrites : ∀ text, .peer .toClient (.failWriting text) ∉ delivering ++ parting := by
    simp [delivering, parting]
  have hout : (run secluded (.start {} ()) (delivering ++ parting)).outcome ≠ none := by
    decide +kernel
  obtain ⟨-, -, hiff, -, -⟩ :=
    leaves_iff_denied_first secluded {} () (delivering ++ parting) hwrites
  refine ⟨hwrites, hout, (hiff hout).mpr ⟨by decide +kernel, delivering, parting, rfl, ?_, ?_⟩⟩
  · exact (run_accountable secluded {} () delivering).denied.mpr ⟨["secluded"], by decide +kernel⟩
  · have hreads : (run secluded (.start {} ()) delivering).phase .toBroker = .reading := by
      decide +kernel
    rw [hreads]
    nofun

/-- The client sends a packet of a type that does not exist, and the pump ends with an error. -/
def unknownType : List Event :=
  [.peer .toBroker (.arrive [0xF0, 0x00]), .pump .toBroker]

def Silent (events : List Event) : Prop :=
  (∀ text, .peer .toClient (.failWriting text) ∉ events) ∧
  (run secluded (.start {} ()) events).outcome ≠ none ∧
  Denied (run secluded (.start {} ()) events).journal ∧
  ¬ Leaves (run secluded (.start {} ()) events)

theorem silent_of_nothing_written {events : List Event}
    (hwrites : ∀ text, .peer .toClient (.failWriting text) ∉ events)
    (hout : (run secluded (.start {} ()) events).outcome ≠ none)
    (hdenied : (run secluded (.start {} ()) events).phase .toClient =
      .ended (some (.deliveryDenied ["secluded"])))
    (hnothing : ((run secluded (.start {} ()) events).sink .toBroker).outlet.written = []) :
    Silent events := by
  refine ⟨hwrites, hout, (run_accountable secluded {} () events).denied.mpr ⟨_, hdenied⟩,
    fun h => ?_⟩
  rw [Leaves, hnothing] at h
  exact List.append_ne_nil_of_right_ne_nil _ (by decide) h.2.symm

/-- Both a crash of the pump to the broker and an error of it keep the relay from leaving. -/
theorem silent_after_denial :
    Silent (shortAck ++ delivering ++ parting) ∧ Silent (unknownType ++ delivering ++ parting) :=
  ⟨silent_of_nothing_written (by simp [shortAck, delivering, parting]) (by decide +kernel)
      (by decide +kernel) (by decide +kernel),
    silent_of_nothing_written (by simp [unknownType, delivering, parting]) (by decide +kernel)
      (by decide +kernel) (by decide +kernel)⟩

end MqttGateway.Relay
