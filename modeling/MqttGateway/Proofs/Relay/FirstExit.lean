import MqttGateway.Proofs.Relay.Leaving
/-!
# The first exit

Main statement: after a first exit without an error a relay ends without an error of its pumps
exactly if the other pump crashes or comes to its end at its read. A frame that the other pump still
has in hand can be denied, and an error that comes of it is the one that the relay ends with.
-/
namespace MqttGateway.Relay

variable {σ : Type} {g : Gate σ} {s t : State σ} {d : Direction}

/-! ## Ends without an error -/

def EndsAtRead (g : Gate σ) (s : State σ) (events : List Event) (d : Direction) : Prop :=
  ∃ before after, events = before ++ .pump d :: after ∧
    (run g s before).phase d = .reading ∧
    ((run g s before).stopped = true ∨ ((run g s before).source d).inlet.take = .closed)

/-- Only at its read does a pump end without an error. -/
theorem Turn.reading_of_ended {connected : Bool} {p : Phase} {e : Option Entry}
    (h : Turn g connected d p e (.ended none)) : p = .reading := by
  rcases h.of_isOver rfl with hp | ⟨_, _, _, hq⟩ | ⟨fault, hq, _⟩
  · exact hp
  · cases hq
  · cases hq

theorem read_ended_iff (hp : s.phase d = .reading) : (read s d).phase d = .ended none ↔
    s.stopped = true ∨ (s.source d).inlet.take = .closed := by
  rw [read_phase hp]
  cases hstop : s.stopped with
  | true => simp
  | false =>
    cases htake : (s.source d).inlet.take with
    | failed halt rest => cases halt <;> simp
    | _ => simp

/-- A pump has ended without an error exactly if it came to its end at its read. -/
theorem run_ended_iff (g : Gate σ) (events : List Event) (hs : s.phase d ≠ .ended none) :
    (run g s events).phase d = .ended none ↔ EndsAtRead g s events d := by
  refine run_enters_at_read_iff g events rfl hs (fun s t hmoves hended => ?_)
    fun s hp => read_ended_iff hp
  obtain ⟨e, q, r, hturn, -, rfl⟩ := hmoves
  rw [State.enter_phase] at hended
  subst hended
  exact hturn.reading_of_ended

/-! ## What a relay ends with -/

def lastFault : Reply Unit → List RelayFault
  | .refused causes => [.disconnect causes]
  | _ => []

def faultsOf (s : State σ) (reply : Reply Unit) : List RelayFault :=
  (firstFault? s).toList.map (fun e => .pump e.1 s.session.shownId e.2) ++ crashes s ++
    (leaveBroker s).2 ++ lastFault reply

theorem crashes_congr (h : ∀ d, t.phase d = s.phase d) : crashes t = crashes s := by
  simp only [crashes, h]

theorem crashes_eq (s : State σ) : crashes s =
    (if s.phase .toBroker = .crashed then [.crashed .toBroker] else []) ++
    (if s.phase .toClient = .crashed then [.crashed .toClient] else []) := by
  by_cases hbroker : s.phase .toBroker = .crashed <;>
    by_cases hclient : s.phase .toClient = .crashed <;> simp [crashes, hbroker, hclient]

/-- If one pump has ended, only the other can have crashed. -/
theorem crashes_of_ended {fault : Option PumpFault} (h : s.phase d = .ended fault) :
    crashes s = if s.phase d.opposite = .crashed then [.crashed d.opposite] else [] := by
  have hended : s.phase d ≠ .crashed := by
    rw [h]
    nofun
  rw [crashes_eq]
  cases d with
  | toBroker => rw [if_neg hended, List.nil_append, Direction.opposite]
  | toClient => rw [if_neg hended, List.append_nil, Direction.opposite]

/-- How a relay comes to its end: the last hook is called, and unless this crashes the relay ends
with its faults. -/
theorem conclude_outcome (g : Gate σ) (s : State σ) : ∃ reply,
    (conclude g s).1.journal = (leaveBroker s).1.journal ++ [.disconnected s.session reply] ∧
    (reply = .crashed → (conclude g s).1.outcome = some .crashed) ∧
    (reply ≠ .crashed → (conclude g s).1.outcome = some (.ended (faultsOf s reply))) := by
  cases hcall : g.handler.disconnected s.session s.hooks with
  | mk reply hooks =>
    simp only [conclude, leaveBroker_session, leaveBroker_hooks, hcall,
      crashes_congr (leaveBroker_phase s)]
    refine ⟨reply, rfl, ?_, ?_⟩
    · rintro rfl
      rfl
    · intro hreply
      cases reply with
      | done _ => simp [faultsOf, lastFault]
      | refused causes => rfl
      | crashed => exact absurd rfl hreply

/-- A relay ends with its faults and calls the last hook last. -/
theorem conclude_faults {faults : List RelayFault}
    (h : (conclude g s).1.outcome = some (.ended faults)) : ∃ reply,
      (∃ earlier, (conclude g s).1.journal = earlier ++ [.disconnected s.session reply]) ∧
      faults = faultsOf s reply := by
  obtain ⟨reply, hjournal, hcrashes, hreturns⟩ := conclude_outcome g s
  refine ⟨reply, ⟨_, hjournal⟩, ?_⟩
  by_cases hreply : reply = .crashed
  · cases (hcrashes hreply).symm.trans h
  · cases (hreturns hreply).symm.trans h
    rfl

def unwritten? (s : State σ) : Option CodecError :=
  if leavesBroker s then (s.sink .toBroker).outlet.broken.map .io else none

theorem leaveBroker_unwritten (s : State σ) :
    (leaveBroker s).2 = (unwritten? s).toList.map .brokerDisconnect := by
  cases hleaves : leavesBroker s with
  | false =>
    rw [leaveBroker_of_stays hleaves, unwritten?, hleaves]
    rfl
  | true =>
    rw [unwritten?, hleaves, if_pos rfl]
    cases hbroken : (s.sink .toBroker).outlet.broken with
    | some text =>
      rw [leaveBroker_of_broken hleaves hbroken]
      rfl
    | none =>
      rw [leaveBroker_of_open hleaves hbroken]
      rfl

/-- Without an error of a pump nobody leaves the broker with a DISCONNECT. -/
theorem faultsOf_of_no_fault (h : firstFault? s = none) (reply : Reply Unit) :
    faultsOf s reply = crashes s ++ lastFault reply := by
  have hstays : leavesBroker s = false := by simp [leavesBroker, h]
  rw [faultsOf, h, leaveBroker_of_stays hstays, List.append_nil]
  rfl

theorem pumpFault?_crashes {fault : RelayFault} (h : fault ∈ crashes s) :
    fault.pumpFault? = none := by
  obtain ⟨d, -, hd⟩ := List.mem_filterMap.mp h
  simp only [Option.ite_none_right_eq_some, Option.some.injEq] at hd
  rw [← hd.2]
  rfl

theorem pumpFault?_lastFault {reply : Reply Unit} {fault : RelayFault}
    (h : fault ∈ lastFault reply) : fault.pumpFault? = none := by
  cases reply with
  | refused causes =>
    rw [List.mem_singleton.mp h]
    rfl
  | _ => cases h

/-- Of all faults that a relay ends with only the first error of its pumps is one of a pump. -/
theorem findSome?_faultsOf (s : State σ) (reply : Reply Unit) :
    (faultsOf s reply).findSome? (·.pumpFault?) = (firstFault? s).map (·.2) := by
  have hcrashes : (crashes s).findSome? (·.pumpFault?) = none :=
    List.findSome?_eq_none_iff.mpr fun _ h => pumpFault?_crashes h
  have hlast : (lastFault reply).findSome? (·.pumpFault?) = none :=
    List.findSome?_eq_none_iff.mpr fun _ h => pumpFault?_lastFault h
  have hleft : (leaveBroker s).2.findSome? (·.pumpFault?) = none := by
    rw [leaveBroker_unwritten]
    cases unwritten? s <;> rfl
  rw [faultsOf, List.findSome?_append, List.findSome?_append, List.findSome?_append, hcrashes,
    hleft, hlast]
  cases firstFault? s <;> rfl

theorem no_pumpFault_iff (s : State σ) (reply : Reply Unit) :
    (∀ fault ∈ faultsOf s reply, fault.pumpFault? = none) ↔ firstFault? s = none := by
  rw [← List.findSome?_eq_none_iff, findSome?_faultsOf, Option.map_eq_none_iff]

/-- If one pump has ended without an error, the first error is that of the other. -/
theorem Reports.firstFault?_iff (hs : Reports s) (hd : s.phase d = .ended none) {c : Direction}
    {fault : PumpFault} : Relay.firstFault? s = some (c, fault) ↔
      c = d.opposite ∧ s.phase d.opposite = .ended (some fault) := by
  have hother {c : Direction} {fault : PumpFault} (h : Relay.firstFault? s = some (c, fault)) :
      c = d.opposite ∧ s.phase d.opposite = .ended (some fault) := by
    have hended := (hs.exits c _).mp (firstFault?_mem h)
    rcases c.eq_or_opposite d with rfl | rfl
    · cases hd.symm.trans hended
    · exact ⟨rfl, hended⟩
  refine ⟨hother, ?_⟩
  rintro ⟨rfl, hended⟩
  cases hfirst : Relay.firstFault? s with
  | none => exact absurd ((hs.exits _ _).mpr hended) (firstFault?_eq_none hfirst)
  | some e =>
    obtain ⟨c, fault'⟩ := e
    obtain ⟨rfl, hended'⟩ := hother hfirst
    cases hended.symm.trans hended'
    rfl

theorem Reports.no_fault_iff (hs : Reports s) (hd : s.phase d = .ended none)
    (hover : s.isOver = true) : Relay.firstFault? s = none ↔
      s.phase d.opposite = .crashed ∨ s.phase d.opposite = .ended none := by
  have hother := (State.isOver_iff s).mp hover d.opposite
  constructor
  · intro hno
    cases hp : s.phase d.opposite with
    | ended report =>
      cases report with
      | none => exact .inr rfl
      | some fault =>
        rw [(hs.firstFault?_iff hd).mpr ⟨rfl, hp⟩] at hno
        cases hno
    | crashed => exact .inl rfl
    | _ =>
      rw [hp] at hother
      cases hother
  · intro hp
    cases hfault : Relay.firstFault? s with
    | none => rfl
    | some e =>
      have hended := ((hs.firstFault?_iff hd).mp hfault).2
      rcases hp with hp | hp <;> cases hp.symm.trans hended

/-- A relay whose first exit was without an error ends without an error of its pumps exactly if the
other pump has crashed or come to its end at its read. It then ends with nothing but that crash and
what the last hook adds. Otherwise it ends with the error of the other pump. -/
theorem clean_exit_wins_iff (g : Gate σ) (session : Session) (hooks : σ) (events : List Event)
    (d : Direction) (faults : List RelayFault)
    (hfirst : (run g (.start session hooks) events).exits.head? = some (d, none))
    (hout : (run g (.start session hooks) events).outcome = some (.ended faults)) :
    let s := run g (.start session hooks) events
    ((∀ fault ∈ faults, fault.pumpFault? = none) ↔
      s.phase d.opposite = .crashed ∨ EndsAtRead g (.start session hooks) events d.opposite) ∧
    ((∀ fault ∈ faults, fault.pumpFault? = none) → ∃ earlier reply,
      s.journal = earlier ++ [.disconnected s.session reply] ∧
      faults = (if s.phase d.opposite = .crashed then [.crashed d.opposite] else []) ++
        lastFault reply) ∧
    ∀ fault, s.phase d.opposite = .ended (some fault) →
      faults.head? = some (.pump d.opposite s.session.shownId fault) := by
  intro s
  have hended : s.outcome ≠ none := by
    rw [hout]
    nofun
  obtain ⟨before, after, hevents, -, hover, hstill⟩ := run_concluded g session hooks hended
  have hreports := run_reports g session hooks before
  generalize run g (.start session hooks) before = t at hover hstill hreports
  -- the pumps and the session are the same as when the relay came to its end
  have hend := conclude_concludes g t
  have hphase (c : Direction) : s.phase c = t.phase c := (hstill.phase c).trans (hend.phase c)
  have hsession : s.session = t.session := hstill.session.trans hend.session
  obtain ⟨reply, ⟨earlier, hjournal⟩, rfl⟩ := conclude_faults (hstill.outcome.symm.trans hout)
  have hclean : t.phase d = .ended none := by
    rw [← hphase]
    exact ((run_reports g session hooks events).exits d none).mp (List.mem_of_mem_head? hfirst)
  have hreads : EndsAtRead g (.start session hooks) events d.opposite ↔
      t.phase d.opposite = .ended none := by
    rw [← run_ended_iff g events (by cases d <;> exact nofun), ← hphase]
  refine ⟨?_, fun hall => ⟨earlier, reply, ?_, ?_⟩, fun fault hfault => ?_⟩
  · rw [no_pumpFault_iff, hreports.no_fault_iff hclean hover, hreads, hphase]
  · rw [hsession, hstill.journal, hjournal]
  · rw [faultsOf_of_no_fault ((no_pumpFault_iff t reply).mp hall), crashes_of_ended hclean, hphase]
  · rw [hphase] at hfault
    rw [faultsOf, (hreports.firstFault?_iff hclean).mpr ⟨rfl, hfault⟩, hsession]
    rfl

def closingDown : List Event :=
  closing ++ [.supervise, .pump .toClient, .conclude]

theorem ends_clean_after_closing :
    (run permissive (.start {} ()) closingDown).exits.head? = some (.toBroker, none) ∧
    (run permissive (.start {} ()) closingDown).outcome = some (.ended []) ∧
    EndsAtRead permissive (.start {} ()) closingDown .toClient := by
  have hfirst :
      (run permissive (.start {} ()) closingDown).exits.head? = some (.toBroker, none) := by
    decide +kernel
  have hout : (run permissive (.start {} ()) closingDown).outcome = some (.ended []) := by
    decide +kernel
  obtain ⟨hiff, -, -⟩ := clean_exit_wins_iff permissive {} () closingDown .toBroker [] hfirst hout
  refine ⟨hfirst, hout, (hiff.mp nofun).resolve_left ?_⟩
  decide +kernel

/-- The broker delivers a PUBLISH, the client closes its connection while the delivery is in hand,
and only then the delivery is denied. -/
def lateDenial : List Event :=
  [.peer .toClient (.arrive [0x30, 0x03, 0x00, 0x01, 0x74]), .pump .toClient,
    .peer .toBroker .halfClose, .pump .toBroker, .pump .toClient, .pump .toClient, .supervise,
    .conclude]

/-- A relay whose first exit was without an error ends with the error of the second. -/
theorem ends_denied_after_clean_exit :
    (run secluded (.start {} ()) lateDenial).exits.head? = some (.toBroker, none) ∧
    (run secluded (.start {} ()) lateDenial).outcome =
      some (.ended [.pump .toClient "unknown" (.deliveryDenied ["secluded"])]) := by
  constructor <;> decide +kernel

end MqttGateway.Relay
