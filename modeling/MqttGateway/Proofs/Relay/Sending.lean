import MqttGateway.Proofs.Frame.Rewriting
import MqttGateway.Proofs.Relay.Concluding
import MqttGateway.Proofs.Relay.Identity
/-!
# What becomes of one frame

A pump that nobody intercepts writes what was authorized after a fixed number of steps of its own,
whatever happens between them. Main statement: the packet is then read behind all that went before,
or, if it has no wire form or the connection is broken, nothing is written and the pump ends for
that reason.
-/
namespace MqttGateway

namespace Frame.Made

variable {f : Frame}

/-- A frame goes out if its packet can be encoded, as the octets it came in or as new ones. -/
theorem exists_wire (h : f.Made) {octets : Octets} (hencode : f.packet.encode = .ok octets) :
    ∃ sent, f.wire = .ok sent := by
  rcases made_iff.mp h with hnone | ⟨received, hreceived, -⟩
  · exact ⟨octets, (wire_eq_ok_iff hnone).mpr hencode⟩
  · exact ⟨received, wire_of_some hreceived⟩

/-- A packet that cannot be encoded is not one that was taken, so its frame does not go out. -/
theorem wire_eq_error (h : f.Made) {fault : EncodeFault}
    (hencode : f.packet.encode = .error fault) : f.wire = .error (.unencodable fault) := by
  rcases made_iff.mp h with hnone | ⟨received, hreceived, htake⟩
  · rw [wire_of_none hnone, hencode]
    rfl
  · obtain ⟨octets, hframe, -, -, hdecode⟩ := Inlet.take_eq_frame_iff.mp (htake [] .open)
    obtain ⟨out, hout, -⟩ := Packet.exists_encode_of_decode hframe hdecode
    cases hencode.symm.trans hout

end Frame.Made

theorem Frame.Intact.made_or_edit {f : Frame} (hf : f.Intact) (kept : Prop) [Decidable kept]
    (change : Packet → Packet) : (if kept then f else f.edit change).Made := by
  split
  · exact .of_intact hf
  · exact (Made.of_intact hf).edit change

namespace Relay

variable {σ : Type} {g : Gate σ} {s t u : State σ} {c d : Direction}

/-! ## What the other pump does -/

theorem Performs.written_elsewhere {e : Option Entry} (h : Performs g c s e t) (hcd : c ≠ d) :
    (t.sink d).outlet.written = (s.sink d).outlet.written := by
  cases h with
  | take => cases c <;> cases d <;> rfl
  | write =>
    cases c <;> cases d
    · exact absurd rfl hcd
    · rfl
    · rfl
    · exact absurd rfl hcd
  | _ => cases d <;> rfl

/-- As long as a pump runs nobody else writes in its direction. -/
theorem step_written {e : Event} (he : e ≠ .pump d) (hrunning : (s.phase d).isOver = false) :
    ((step g s e).sink d).outlet.written = (s.sink d).outlet.written := by
  cases e with
  | peer c h => exact (peer_still s c h).written d
  | pump c =>
    have hc : c ≠ d := fun h => he (h ▸ rfl)
    rcases pump_moves g c s with h | ⟨e, q, r, -, hperf, h⟩
    · rw [step, pump_rests g h]
    · rw [step, h, State.sink, State.enter_source]
      exact hperf.written_elsewhere hc
  | supervise => exact (supervise_still s).written d
  | conclude =>
    have hsame : step g s .conclude = s := by
      rw [step, State.not_over_of_running hrunning]
      simp
    rw [hsame]

structure Elsewhere (d : Direction) (k : List Entry) : Prop where
  taken : taken d k = []
  calls : calls d k = []
  forwarded : forwarded d k = []

theorem Elsewhere.nil (d : Direction) : Elsewhere d [] :=
  ⟨rfl, rfl, rfl⟩

theorem Elsewhere.append {j k : List Entry} (hj : Elsewhere d j) (hk : Elsewhere d k) :
    Elsewhere d (j ++ k) := by
  refine ⟨?_, ?_, ?_⟩
  · rw [taken_append, hj.taken, hk.taken, List.append_nil]
  · rw [Relay.calls, List.filterMap_append, ← Relay.calls, ← Relay.calls, hj.calls, hk.calls,
      List.append_nil]
  · rw [forwarded_append, hj.forwarded, hk.forwarded, List.append_nil]

/-- Only its own steps tell something of a pump. -/
theorem step_elsewhere {e : Event} (he : e ≠ .pump d) :
    ∃ k, (step g s e).journal = s.journal ++ k ∧ Elsewhere d k := by
  have silent (hsame : (step g s e).journal = s.journal) :
      ∃ k, (step g s e).journal = s.journal ++ k ∧ Elsewhere d k :=
    ⟨[], by rw [hsame, List.append_nil], .nil d⟩
  cases e with
  | peer c h => exact silent (peer_still s c h).journal
  | pump c =>
    have hc : c ≠ d := fun h => he (h ▸ rfl)
    rcases pump_moves g c s with h | ⟨e, q, r, -, hperf, h⟩
    · exact silent (by rw [step, pump_rests g h])
    · obtain ⟨htaken, hcalls, hforwarded⟩ := hperf.elsewhere hc
      exact ⟨e.toList, by rw [step, h, hperf.enter_journal], htaken, hcalls, hforwarded⟩
  | supervise => exact silent (supervise_still s).journal
  | conclude =>
    simp only [step] at silent ⊢
    split
    case isFalse hrunning => exact ⟨[], (List.append_nil _).symm, .nil d⟩
    case isTrue =>
      obtain ⟨k, hk, hlast⟩ := (conclude_concludes g s).journal
      exact ⟨k, hk, taken_last hlast, calls_last hlast, forwarded_last hlast⟩

/-- A pump that is over does nothing more. -/
theorem run_elsewhere (hover : (s.phase d).isOver = true) (events : List Event) :
    ∃ k, (run g s events).journal = s.journal ++ k ∧ Elsewhere d k := by
  induction events generalizing s with
  | nil => exact ⟨[], (List.append_nil _).symm, .nil d⟩
  | cons e events ih =>
    rw [run, List.foldl_cons, ← run]
    by_cases he : e = .pump d
    · rw [he, step, pump_rests g (.inl hover)]
      exact ih hover
    · obtain ⟨j, hj, helse⟩ := step_elsewhere (g := g) he (s := s)
      obtain ⟨k, hk, hrest⟩ := ih (s := step g s e) (by rwa [step_phase he])
      exact ⟨j ++ k, by rw [hk, hj, List.append_assoc], helse.append hrest⟩

/-! ## From an answer to the wire -/

section Asking

variable {α : Type} (s : State σ) (d : Direction) (call : Reply α → Call) (hook : Hook σ α)
variable (next : Reply α → Phase)

@[simp] theorem ask_phase : (s.ask d call hook next).phase d = next (hook s.hooks).1 := by
  cases d <;> rfl

@[simp] theorem ask_source (c : Direction) :
    (s.ask d call hook next).source c = s.source c := by
  cases d <;> cases c <;> rfl

@[simp] theorem ask_journal : (s.ask d call hook next).journal =
    s.journal ++ [.called d (call (hook s.hooks).1)] := by
  cases d <;> rfl

end Asking

/-- If nobody intercepts it, the pump comes to write the frame in `n` more steps of its own. -/
inductive Phase.Nears (f : Frame) : Phase → Nat → Prop
  | storing (session : Session) : Nears f (.storing session f) 3
  | cleared : Nears f (.intercepting none f) 2
  | looked (seen : Session) : Nears f (.intercepting (some seen) f) 1
  | writing : Nears f (.writing f) 0

theorem Phase.Nears.running {f : Frame} {p : Phase} {n : Nat} (h : p.Nears f n) :
    p.isOver = false := by
  cases h <;> rfl

theorem Phase.Nears.eq_writing {f : Frame} {p : Phase} (h : p.Nears f 0) : p = .writing f := by
  cases h
  rfl

theorem pump_nears (hi : g.interceptor = none) {f : Frame} {n : Nat}
    (h : (s.phase d).Nears f (n + 1)) : ((pump g d s).phase d).Nears f n ∧
      ((pump g d s).sink d).outlet.written = (s.sink d).outlet.written := by
  generalize hp : s.phase d = p at h
  generalize hn : n + 1 = m at h
  cases h with
  | storing session =>
    obtain rfl : n = 2 := by omega
    simp only [pump, hp, store, State.sink, State.enter_source, State.note_source,
      State.withSession_source, State.enter_phase, and_true]
    exact .cleared
  | cleared =>
    obtain rfl : n = 1 := by omega
    simp only [pump, hp, look, State.sink, State.enter_source, State.note_source,
      State.enter_phase, and_true]
    exact .looked s.session
  | looked seen =>
    obtain rfl : n = 0 := by omega
    simp only [pump, hp, intercept, hi, State.sink, State.enter_source, State.enter_phase,
      and_true]
    exact .writing
  | writing => cases hn

/-- After as many steps of its own as it needs the pump is about to write, and nothing has gone in
its direction in the meantime. -/
theorem run_nears (hi : g.interceptor = none) {f : Frame} {events : List Event}
    (h : (s.phase d).Nears f (events.count (.pump d))) :
    (run g s events).phase d = .writing f ∧
      ((run g s events).sink d).outlet.written = (s.sink d).outlet.written := by
  induction events generalizing s with
  | nil => exact ⟨h.eq_writing, rfl⟩
  | cons e events ih =>
    rw [run, List.foldl_cons, ← run]
    by_cases he : e = .pump d
    · subst he
      rw [List.count_cons_self] at h
      obtain ⟨hnears, hwritten⟩ := pump_nears hi h
      obtain ⟨hphase, hrest⟩ := ih (s := step g s (.pump d)) hnears
      exact ⟨hphase, hrest.trans hwritten⟩
    · have hwritten := step_written (g := g) he h.running
      rw [List.count_cons_of_ne he, ← step_phase (g := g) he] at h
      obtain ⟨hphase, hrest⟩ := ih h
      exact ⟨hphase, hrest.trans hwritten⟩

/-- Between `s` and `t` the pump of a direction has written the packet, which is read behind all
that went before, or it has ended because this failed, and has written nothing. -/
structure Sends (d : Direction) (s t : State σ) (packet : Packet) : Prop where
  unencodable : ∀ fault, packet.encode = .error fault →
    t.phase d = .ended (some (.write (.unencodable fault))) ∧
    (t.sink d).outlet.written = (s.sink d).outlet.written
  broken : ∀ octets text, packet.encode = .ok octets → (t.sink d).outlet.broken = some text →
    t.phase d = .ended (some (.write (.io text))) ∧
    (t.sink d).outlet.written = (s.sink d).outlet.written
  written : ∀ octets, packet.encode = .ok octets → (t.sink d).outlet.broken = none →
    ∃ sent, (t.sink d).outlet.written = (s.sink d).outlet.written ++ sent ∧
      ∀ more ending, Inlet.take ⟨sent ++ more, ending⟩ = .frame ⟨packet, some sent⟩ more

theorem Sends.of_written {packet : Packet} (h : Sends d s u packet)
    (hwritten : (s.sink d).outlet.written = (t.sink d).outlet.written) : Sends d t u packet := by
  obtain ⟨unencodable, broken, written⟩ := h
  rw [hwritten] at unencodable broken written
  exact ⟨unencodable, broken, written⟩

/-! ## The write -/

section Writing

variable {f : Frame} {octets : Octets}

/-- What is read where a frame has gone out is its packet, if the wire form tells all of it. -/
theorem read_wire (hf : f.Made) (hraw : ∀ kind raw, f.packet ≠ .other kind raw)
    (hsame : f.packet.onWire = f.packet) (hwire : f.wire = .ok octets) (more : Octets)
    (ending : Ending) :
    Inlet.take ⟨octets ++ more, ending⟩ = .frame ⟨f.packet, some octets⟩ more := by
  have hback : f.readBack = f.packet := by
    rw [Frame.readBack, hsame, ite_self]
  rw [hf.take_wire hraw hwire, hback]

/-- A pump that is about to write a frame sends its packet, if the wire form tells all of it. -/
theorem pump_sends (hp : s.phase d = .writing f) (hf : f.Made)
    (hraw : ∀ kind raw, f.packet ≠ .other kind raw) (hsame : f.packet.onWire = f.packet) :
    Sends d s (pump g d s) f.packet := by
  have hpump : pump g d s = write s d f := by
    rw [pump, hp]
  rw [hpump]
  have hended (fault : PumpFault) : (s.enter d (.ended (some fault))).sink d = s.sink d :=
    State.enter_source ..
  constructor
  · intro fault hencode
    rw [write_error (hf.wire_eq_error hencode), hended]
    exact ⟨State.enter_phase .., rfl⟩
  · intro octets text hencode htext
    obtain ⟨sent, hwire⟩ := hf.exists_wire hencode
    cases hbroken : (s.sink d).outlet.broken with
    | some text' =>
      rw [write_broken hwire hbroken, hended] at htext ⊢
      cases hbroken.symm.trans htext
      exact ⟨State.enter_phase .., rfl⟩
    | none =>
      rw [write_open hwire hbroken] at htext
      simp [State.sink, State.setSink] at htext
  · intro octets hencode hopen
    obtain ⟨sent, hwire⟩ := hf.exists_wire hencode
    cases hbroken : (s.sink d).outlet.broken with
    | some text =>
      rw [write_broken hwire hbroken, hended, hbroken] at hopen
      cases hopen
    | none =>
      rw [write_open hwire hbroken]
      refine ⟨sent, ?_, read_wire hf hraw hsame hwire⟩
      simp [State.sink, State.setSink]

/-- What a pump that nobody intercepts has in hand after an answer is sent with the last of its
steps. -/
theorem run_sends (hi : g.interceptor = none) {events : List Event}
    (h : (s.phase d).Nears f (events.count (.pump d))) (hf : f.Made)
    (hraw : ∀ kind raw, f.packet ≠ .other kind raw) (hsame : f.packet.onWire = f.packet) :
    Sends d s (run g s (events ++ [.pump d])) f.packet := by
  obtain ⟨hphase, hwritten⟩ := run_nears hi h
  rw [run_snoc]
  exact (pump_sends hphase hf hraw hsame).of_written hwritten

end Writing

/-- A pump that has been answered sends what goes on in place of its packet with the last of its
steps. -/
theorem answered_sends (hi : g.interceptor = none) {f : Frame} {more : List Event} {n : Nat}
    {packet : Packet} (hcount : more.count (.pump d) = n)
    (hsink : (pump g d s).sink d = s.sink d) (hnears : ((pump g d s).phase d).Nears f n)
    (hf : f.Made) (hpacket : f.packet = packet) (hraw : ∀ kind raw, packet ≠ .other kind raw)
    (hsame : packet.onWire = packet) :
    Sends d s (run g s (.pump d :: more ++ [.pump d])) packet := by
  subst hcount hpacket
  exact (run_sends hi hnears hf hraw hsame).of_written (by rw [hsink])

/-- What the pump to the broker has in hand when it asks is the frame it has taken last, as it came.
-/
theorem run_in_hand (g : Gate σ) (first : Session) (hooks : σ) (events : List Event)
    {seen : Option Session} {f : Frame}
    (hp : (run g (.start first hooks) events).phase .toBroker = .authorizing seen f) :
    (taken .toBroker (run g (.start first hooks) events).journal).getLast? = some f ∧ f.Intact := by
  have hlast := (run_accounts g first hooks events .toBroker).getLast?_taken hp
  exact ⟨hlast, run_intact g first hooks events (List.append_nil _).symm hlast⟩

end Relay
end MqttGateway
