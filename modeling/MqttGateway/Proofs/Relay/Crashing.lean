import MqttGateway.Proofs.Packet.Overrun
import MqttGateway.Proofs.Relay.FirstExit
/-!
# Crashes

Main statement: as long as the hooks do not crash, a pump crashes exactly if it comes to a frame that
is cut short, which is a frame for which the decoder has no answer. Whatever else arrives that is no
packet ends the pump with an error of the codec.
-/
namespace MqttGateway.Relay

variable {σ : Type} {g : Gate σ} {s t : State σ} {d : Direction}

def Gate.NeverCrashes (g : Gate σ) : Prop :=
  ∀ (call : Call) (before after : σ), call.AnsweredBy g before after → call.crashes = false

/-! ## A step of a pump -/

/-- A pump that crashes was reading, or somebody crashed whom it called. -/
theorem Turn.of_crashed {connected : Bool} {p : Phase} {e : Option Entry}
    (h : Turn g connected d p e .crashed) :
    p = .reading ∨ ∃ call, e = some (.called d call) ∧ call.crashes = true := by
  rcases h.of_isOver rfl with hp | ⟨call, he, hcrash, -⟩ | ⟨_, hq, _⟩
  · exact .inl hp
  · exact .inr ⟨call, he, hcrash⟩
  · cases hq

/-- Only at its read does a pump end with an error of the codec. -/
theorem Turn.reading_of_codec {connected : Bool} {p : Phase} {e : Option Entry}
    {error : CodecError} (h : Turn g connected d p e (.ended (some (.codec error)))) :
    p = .reading := by
  rcases h.of_isOver rfl with hp | ⟨_, _, _, hq⟩ | ⟨fault, hq, hfault⟩
  · exact hp
  · cases hq
  · cases hq
    exact absurd rfl (hfault error)

theorem read_crashed_iff (hp : s.phase d = .reading) : (read s d).phase d = .crashed ↔
    s.stopped = false ∧ ∃ rest, (s.source d).inlet.take = .failed .overrun rest := by
  rw [read_phase hp]
  cases hstop : s.stopped with
  | true => simp
  | false =>
    cases htake : (s.source d).inlet.take with
    | failed halt rest => cases halt <;> simp
    | _ => simp

theorem read_codec_iff {error : CodecError} (hp : s.phase d = .reading) :
    (read s d).phase d = .ended (some (.codec error)) ↔
      s.stopped = false ∧ ∃ rest, (s.source d).inlet.take = .failed (.error error) rest := by
  rw [read_phase hp]
  cases hstop : s.stopped with
  | true => simp
  | false =>
    cases htake : (s.source d).inlet.take with
    | failed halt rest => cases halt <;> simp
    | _ => simp

theorem Gate.NeverCrashes.reading (hg : g.NeverCrashes) (h : Moves g d s t)
    (ht : t.phase d = .crashed) : s.phase d = .reading := by
  obtain ⟨e, q, r, hturn, hperf, rfl⟩ := h
  rw [State.enter_phase] at ht
  subst ht
  rcases hturn.of_crashed with hp | ⟨call, rfl, hcrash⟩
  · exact hp
  · rw [hg call _ _ hperf.answeredBy] at hcrash
    cases hcrash

theorem Moves.reading_of_codec {error : CodecError} (h : Moves g d s t)
    (ht : t.phase d = .ended (some (.codec error))) : s.phase d = .reading := by
  obtain ⟨e, q, r, hturn, hperf, rfl⟩ := h
  rw [State.enter_phase] at ht
  subst ht
  exact hturn.reading_of_codec

/-! ## Runs -/

theorem start_phase_ne {session : Session} {hooks : σ} {q : Phase} (hq : q.isOver = true) :
    (State.start session hooks).phase d ≠ q := by
  rintro rfl
  cases d <;> cases hq

/-- A relay that has ended tells of the pumps that have crashed, and of no others. -/
theorem crashed_mem_iff (g : Gate σ) (session : Session) (hooks : σ) (events : List Event)
    {faults : List RelayFault}
    (hout : (run g (.start session hooks) events).outcome = some (.ended faults)) :
    .crashed d ∈ faults ↔ (run g (.start session hooks) events).phase d = .crashed := by
  obtain ⟨before, after, -, -, -, hstill⟩ := run_concluded g session hooks (by rw [hout]; nofun)
  generalize run g (.start session hooks) before = t at hstill
  obtain ⟨reply, -, rfl⟩ := conclude_faults (hstill.outcome.symm.trans hout)
  have hunwritten : RelayFault.crashed d ∉ (leaveBroker t).2 := by
    simp [leaveBroker_unwritten]
  have hlast : RelayFault.crashed d ∉ lastFault reply := by
    cases reply <;> simp [lastFault]
  have hcrashes : RelayFault.crashed d ∈ crashes t ↔ t.phase d = .crashed := by
    cases d <;> simp [crashes_eq]
  have hphase := (hstill.phase d).trans ((conclude_concludes g t).phase d)
  simp [faultsOf, hunwritten, hlast, hcrashes, hphase]

/-- The decoder has no answer exactly for data that is cut short, and an inlet stops its reader
exactly in front of a frame that is. In a relay whose hooks never crash this is the only way for a
pump to crash, and a pump that comes to an error of the codec ends with it. -/
theorem crashes_iff_cut_short (g : Gate σ) (hg : g.NeverCrashes) (session : Session) (hooks : σ)
    (events : List Event) (d : Direction) :
    (∀ data, Packet.decode data = .error .overrun ↔ Packet.CutsShort data) ∧
    (∀ inlet rest, Inlet.take inlet = .failed .overrun rest ↔
      ∃ octets, IsFrame octets ∧ Packet.CutsShort octets ∧ inlet.arrived = octets ++ rest) ∧
    let s := run g (.start session hooks) events
    (s.phase d = .crashed ↔ AtRead g (.start session hooks) events d fun t =>
      t.stopped = false ∧ ∃ octets rest, IsFrame octets ∧ Packet.CutsShort octets ∧
        (t.source d).inlet.arrived = octets ++ rest) ∧
    (∀ error, s.phase d = .ended (some (.codec error)) ↔
      AtRead g (.start session hooks) events d fun t =>
        t.stopped = false ∧ ∃ rest, (t.source d).inlet.take = .failed (.error error) rest) ∧
    ∀ faults, s.outcome = some (.ended faults) → (.crashed d ∈ faults ↔ s.phase d = .crashed) := by
  refine ⟨Packet.decode_overruns_iff, fun inlet rest => Inlet.take_overruns_iff, ?_, ?_, ?_⟩
  · refine run_enters_at_read_iff g events rfl (start_phase_ne rfl) (fun _ _ => hg.reading)
      fun s hp => ?_
    rw [read_crashed_iff hp]
    simp only [Inlet.take_overruns_iff]
    rw [exists_comm]
  · intro error
    exact run_enters_at_read_iff g events rfl (start_phase_ne rfl) (fun _ _ => Moves.reading_of_codec)
      fun s hp => read_codec_iff hp
  · exact fun faults => crashed_mem_iff g session hooks events

/-- A policy has an answer to everything. -/
theorem neverCrashes_handler (p : Policy) (σ : Type) :
    (⟨p.handler σ, none⟩ : Gate σ).NeverCrashes := by
  have hreply {α : Type} (answer : Except Policy.Denial α) : isCrash (Policy.reply answer) = false := by
    cases answer <;> rfl
  intro call before after h
  cases call with
  | authorizeConnect s r =>
    cases h
    exact hreply _
  | authorizePublish s content r =>
    cases h
    exact hreply _
  | authorizeSubscribe s filters r =>
    cases h
    exact hreply _
  | intercept s f d r =>
    obtain ⟨_, ⟨⟩, -⟩ := h
  | connected s r | published s content r | subscribed s filters r | unsubscribed s filters r =>
    cases h
    rfl

/-- A SUBSCRIBE to `t` without the service level that is asked for. -/
def unfinished : Octets :=
  [0x82, 0x05, 0x00, 0x01, 0x00, 0x01, 0x74]

theorem unfinished_cutsShort : Packet.CutsShort unfinished := by
  refine ⟨0x82, [0x05], unfinished.drop 2, 5, .subscribe, rfl, ⟨[], 0x05, rfl, by decide, nofun,
    by decide, rfl⟩, by decide, ⟨rfl, rfl, nofun⟩, ?_⟩
  have hfilter : (Utf8.encode "t").length ≤ 65535 := by decide +kernel
  exact @Packet.Lacks.qos _ _ _ 1 [] "t" (by decide) nofun hfilter (by decide +kernel)
    (by decide +kernel)

theorem crashes_on_unfinished : permissive.NeverCrashes ∧
    (run permissive (.start {} ())
      [.peer .toBroker (.arrive unfinished), .pump .toBroker]).phase .toBroker = .crashed := by
  have hg : permissive.NeverCrashes := neverCrashes_handler {} Unit
  obtain ⟨-, -, hiff, -⟩ := crashes_iff_cut_short permissive hg {} ()
    [.peer .toBroker (.arrive unfinished), .pump .toBroker] .toBroker
  have hframe : IsFrame unfinished :=
    ⟨0x82, [0x05], unfinished.drop 2, rfl, [], 0x05, rfl, by decide, nofun, by decide, rfl⟩
  exact ⟨hg, hiff.mpr ⟨[.peer .toBroker (.arrive unfinished)], [], rfl, rfl, rfl, unfinished, [],
    hframe, unfinished_cutsShort, rfl⟩⟩

/-- A PUBACK without a packet id leaves the decoder without an answer, and the pump that comes to it
crashes, though no hook does. -/
theorem crashes_on_shortAck :
    Packet.decode [0x40, 0x00] = .error .overrun ∧
    Inlet.take ⟨[0x40, 0x00], .open⟩ = .failed .overrun [] ∧
    permissive.NeverCrashes ∧
    (run permissive (.start {} ()) shortAck).phase .toBroker = .crashed :=
  ⟨rfl, rfl, neverCrashes_handler {} Unit, rfl⟩

end MqttGateway.Relay
