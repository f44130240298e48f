import MqttGateway.Proofs.Frame.Stream
import MqttGateway.Proofs.Relay.Passage
/-!
# What a relay forwards

Main statement: at every moment of every run, whatever the order of its steps, the octets that have
gone in a direction are those of passages of all the frames that were taken from the peer's stream
but at most one in hand, in the order in which these arrived, followed at most by the last
DISCONNECT of a relay that has ended.
-/
namespace MqttGateway.Relay

variable {σ : Type} {g : Gate σ} {s t : State σ} {c d : Direction}

/-! ## The frames that are taken -/

/-- The connection of a peer after an event, if nothing is ever taken from it. -/
def offered (d : Direction) (link : Link) : Event → Link
  | .peer c h => if c = d then link.after h else link
  | _ => link

/-- All octets that arrive from a peer. -/
def stream (d : Direction) (events : List Event) : Octets :=
  (events.foldl (offered d) {}).inlet.arrived

/-- What arrives on `link` yields the frames that have been taken and leaves what can still be
taken. -/
def Tracks (d : Direction) (link : Link) (s : State σ) : Prop :=
  Inlet.Yields link.inlet.arrived (taken d s.journal) (s.source d).inlet.arrived ∧
    link.inlet.ending = (s.source d).inlet.ending

theorem Tracks.of_source {link : Link} (hs : Tracks d link s)
    (hinlet : (t.source d).inlet = (s.source d).inlet)
    (htaken : taken d t.journal = taken d s.journal) : Tracks d link t := by
  unfold Tracks
  rw [hinlet, htaken]
  exact hs

theorem Tracks.after {link : Link} (hs : Tracks d link s) (h : Happening) :
    Tracks d (link.after h) (s.setSource d ((s.source d).after h)) := by
  obtain ⟨hyields, hending⟩ := hs
  unfold Tracks
  rw [State.setSource_source, State.setSource_journal]
  cases h with
  | arrive octets =>
    simp only [Link.after, Link.arrive, hending]
    cases (s.source d).inlet.ending with
    | «open» => exact ⟨hyields.append octets, rfl⟩
    | closed => exact ⟨hyields, hending⟩
    | failed text => exact ⟨hyields, hending⟩
  | halfClose =>
    simp only [Link.after, Link.halfClose, hending]
    cases (s.source d).inlet.ending with
    | «open» => exact ⟨hyields, rfl⟩
    | closed => exact ⟨hyields, hending⟩
    | failed text => exact ⟨hyields, hending⟩
  | failReading text => exact ⟨hyields, rfl⟩
  | failWriting text => exact ⟨hyields, hending⟩

theorem Performs.tracks {e : Option Entry} {link : Link} (hs : Tracks d link s)
    (h : Performs g c s e t) : Tracks d link t := by
  cases h with
  | nothing => exact hs
  | look => exact hs.of_source (by simp) (by simp [taken])
  | call hcall => exact hs.of_source (by simp) (by simp [taken])
  | store session => exact hs.of_source (by simp) (by simp [taken])
  | write hw hb =>
    refine hs.of_source ?_ (by simp [taken, State.setSink])
    cases c <;> cases d <;> rfl
  | @take f rest hstop htake =>
    by_cases hcd : c = d
    · subst hcd
      unfold Tracks
      rw [State.note_journal, taken_append, State.note_source, State.setSource_source,
        State.setSource_journal, show taken c [Entry.took c f] = [f] by simp [taken]]
      exact ⟨hs.1.snoc htake, hs.2⟩
    · refine hs.of_source ?_ ?_
      · rw [State.note_source, State.setSource_source_of_ne _ _ _ (Ne.symm hcd)]
      · rw [State.note_journal, taken_append, State.setSource_journal,
          show taken d [Entry.took c f] = [] by simp [taken, hcd], List.append_nil]

theorem step_tracks {link : Link} (hs : Tracks d link s) (e : Event) :
    Tracks d (offered d link e) (step g s e) := by
  cases e with
  | peer c h =>
    by_cases hcd : c = d
    · subst hcd
      simpa only [offered, step, if_true] using hs.after h
    · simp only [offered, hcd, if_false]
      refine hs.of_source ?_ (by simp [step])
      rw [step, State.setSource_source_of_ne _ _ _ (Ne.symm hcd)]
  | pump c =>
    rcases pump_moves g c s with h | ⟨e, p, r, -, hperf, h⟩
    · simpa only [offered, step, pump_rests g h] using hs
    · simp only [offered, step, h]
      exact (hperf.tracks hs).of_source (by simp) (by simp)
  | supervise => exact hs.of_source (by simp [step]) (by simp [step])
  | conclude =>
    simp only [step]
    split
    case isFalse => exact hs
    case isTrue =>
      have hend := conclude_concludes g s
      obtain ⟨k, hk, hlast⟩ := hend.journal
      refine hs.of_source (hend.inlet d) ?_
      rw [hk, taken_append, taken_last hlast, List.append_nil]

theorem run_tracks (g : Gate σ) (session : Session) (hooks : σ) (events : List Event)
    (d : Direction) :
    Tracks d (events.foldl (offered d) {}) (run g (.start session hooks) events) := by
  have hstart : Tracks d {} (State.start session hooks) := by
    cases d <;> exact ⟨.nil, rfl⟩
  generalize State.start session hooks = s at hstart ⊢
  generalize ({} : Link) = link at hstart ⊢
  induction events generalizing s link with
  | nil => exact hstart
  | cons e events ih => exact ih _ _ (step_tracks hstart e)

/-- At every moment of a run the last frame taken is as it came. -/
theorem run_intact (g : Gate σ) (session : Session) (hooks : σ) (events : List Event)
    {before after : List Entry} (h : (run g (.start session hooks) events).journal = before ++ after)
    {f : Frame} (hf : (taken d before).getLast? = some f) : f.Intact := by
  refine (run_tracks g session hooks events d).1.intact f ?_
  rw [h, taken_append]
  exact List.mem_append_left _ (List.mem_of_getLast? hf)

/-! ## The frames that are written -/

/-- A pump has made the passages of the frames it has written and part of one for the frame in hand.
-/
def Accounts (g : Gate σ) (d : Direction) (s : State σ) : Prop :=
  ∃ (ps : List (Passage g d)) (hand : List Frame) (rest : List Call),
    taken d s.journal = ps.map (·.taken) ++ hand ∧
    gateCalls d s.journal = ps.flatMap (·.calls) ++ rest ∧
    forwarded d s.journal = ps.map (fun p => (p.forwarded, p.octets)) ∧
    InHand g d (s.phase d) hand rest

theorem gateCalls_append (d : Direction) (j k : List Entry) :
    gateCalls d (j ++ k) = gateCalls d j ++ gateCalls d k := by
  simp only [gateCalls, calls, List.filterMap_append, List.filter_append]

theorem gateCalls_last {k : List Entry} (hk : ∀ e ∈ k, e.isLast = true) : gateCalls d k = [] := by
  rw [gateCalls, calls_last hk, List.filter_nil]

/-- What one pump notes tells nothing of the other. -/
theorem Performs.elsewhere {e : Option Entry} (h : Performs g c s e t) (hcd : c ≠ d) :
    taken d e.toList = [] ∧ calls d e.toList = [] ∧ forwarded d e.toList = [] := by
  cases h <;> simp [taken, calls, forwarded, hcd]

theorem Accounts.of_eq (hs : Accounts g d s) (htaken : taken d t.journal = taken d s.journal)
    (hcalls : gateCalls d t.journal = gateCalls d s.journal)
    (hforwarded : forwarded d t.journal = forwarded d s.journal)
    (hphase : t.phase d = s.phase d) : Accounts g d t := by
  unfold Accounts
  rw [htaken, hcalls, hforwarded, hphase]
  exact hs

theorem Accounts.concludes (hs : Accounts g d s) (h : Concludes s t) : Accounts g d t := by
  obtain ⟨k, hk, hlast⟩ := h.journal
  refine hs.of_eq ?_ ?_ ?_ (h.phase d)
  · rw [hk, taken_append, taken_last hlast, List.append_nil]
  · rw [hk, gateCalls_append, gateCalls_last hlast, List.append_nil]
  · rw [hk, forwarded_append, forwarded_last hlast, List.append_nil]

theorem Accounts.moves (hs : Accounts g d s) (h : Moves g c s t) : Accounts g d t := by
  obtain ⟨e, q, r, hturn, hperf, rfl⟩ := h
  by_cases hcd : c = d
  · subst hcd
    obtain ⟨ps, hand, rest, htaken, hcalls, hforwarded, hin⟩ := hs
    unfold Accounts
    rw [hperf.enter_journal, State.enter_phase, taken_append, gateCalls_append, forwarded_append,
      htaken, hcalls, hforwarded]
    rcases hturn.inHand hin with ⟨hnone, hq⟩ | ⟨passage, rfl, rfl, rfl, hq⟩
    · refine ⟨ps, _, _, List.append_assoc .., List.append_assoc .., ?_, hq⟩
      rw [hnone, List.append_nil]
    · refine ⟨ps ++ [passage], [], [], ?_, ?_, ?_, hq⟩
      · simp [taken]
      · simp [gateCalls, calls]
      · simp [forwarded]
  · obtain ⟨htaken, hcalls, hforwarded⟩ := hperf.elsewhere hcd
    refine hs.of_eq ?_ ?_ ?_ ?_
    · rw [hperf.enter_journal, taken_append, htaken, List.append_nil]
    · rw [hperf.enter_journal, gateCalls_append, gateCalls, gateCalls, hcalls, List.filter_nil,
        List.append_nil]
    · rw [hperf.enter_journal, forwarded_append, hforwarded, List.append_nil]
    · exact hperf.enter_phase_of_ne q (Ne.symm hcd)

theorem run_accounts (g : Gate σ) (session : Session) (hooks : σ) (events : List Event)
    (d : Direction) : Accounts g d (run g (.start session hooks) events) := by
  refine run_induction (P := Accounts g d) ?_ ?_ (fun _ _ _ => Accounts.moves) ?_ ?_ events
  · exact ⟨[], [], [], rfl, rfl, rfl, by cases d <;> exact ⟨rfl, rfl⟩⟩
  · exact fun s c h hs => hs.of_eq (by simp) (by simp) (by simp) (by simp)
  · exact fun s hs => hs.of_eq (by simp) (by simp) (by simp) (by simp)
  · exact fun s hs _ _ _ => hs.concludes (conclude_concludes g s)

/-! ## What has gone -/

theorem octetsTo_eq_forwarded {j : List Entry} (d : Direction) (h : ∀ e ∈ j, e.isLast = false) :
    j.flatMap (·.octetsTo d) = (forwarded d j).flatMap (·.2) := by
  induction j with
  | nil => rfl
  | cons e j ih =>
    have hj := ih fun a ha => h a (List.mem_cons_of_mem _ ha)
    have he := h e List.mem_cons_self
    rw [List.flatMap_cons, hj]
    cases e with
    | left octets => cases he
    | disconnected session reply => cases he
    | wrote c f octets =>
      by_cases hcd : c = d <;> simp [Entry.octetsTo, forwarded, hcd]
    | _ => rfl

/-- What has gone in a direction is the octets of the frames that its pump has written, and behind
them, once the relay has ended, at most the last DISCONNECT to the broker. -/
theorem Ends.written (hs : Ends s) (hwrote : Wrote s) (d : Direction) : ∃ last,
    (s.sink d).outlet.written = (forwarded d s.journal).flatMap (·.2) ++ last ∧
    (last = [] ∨ d = .toBroker ∧ last = farewell ∧ s.outcome ≠ none ∧ s.isOver = true) := by
  rw [hwrote d]
  cases hout : s.outcome with
  | none => exact ⟨[], by rw [octetsTo_eq_forwarded d (hs.running hout), List.append_nil], .inl rfl⟩
  | some outcome =>
    obtain ⟨hover, j, last, reply, hj, hrunning, hlast⟩ := hs.ended (by simp [hout])
    have hwritten := octetsTo_eq_forwarded d hrunning
    rcases hlast with rfl | rfl
    · refine ⟨[], ?_, .inl rfl⟩
      simpa [hj, forwarded, Entry.octetsTo] using hwritten
    · cases d with
      | toBroker =>
        refine ⟨farewell, ?_, .inr ⟨rfl, rfl, by simp, hover⟩⟩
        simpa [hj, forwarded, Entry.octetsTo] using hwritten
      | toClient =>
        refine ⟨[], ?_, .inl rfl⟩
        simpa [hj, forwarded, Entry.octetsTo] using hwritten

/-- What has gone to the broker is what its pump has written and at most the last DISCONNECT. -/
theorem run_sent_toBroker (g : Gate σ) (session : Session) (hooks : σ) (events : List Event) :
    let s := run g (.start session hooks) events
    ∃ last, (s.sink .toBroker).outlet.written =
      (forwarded .toBroker s.journal).flatMap (·.2) ++ last ∧ (last = [] ∨ last = farewell) := by
  obtain ⟨last, hwritten, hlast⟩ :=
    (run_ends g session hooks events).written (run_wrote g session hooks events) .toBroker
  exact ⟨last, hwritten, hlast.imp_right fun h => h.2.1⟩

theorem run_sent_toClient (g : Gate σ) (session : Session) (hooks : σ) (events : List Event) :
    let s := run g (.start session hooks) events
    (s.sink .toClient).outlet.written = (forwarded .toClient s.journal).flatMap (·.2) := by
  obtain ⟨last, hwritten, rfl | ⟨hd, -⟩⟩ :=
    (run_ends g session hooks events).written (run_wrote g session hooks events) .toClient
  · rwa [List.append_nil] at hwritten
  · cases hd

/-- A PUBLISH passes to the client only if its topic may be subscribed to. -/
theorem Passage.delivery {d : Direction} (p : Passage g d) {q : Publish} (hd : d = .toClient)
    (hq : p.taken.packet = .publish q) :
    ∃ seen filters, p.authorization = [.authorizeSubscribe seen [q.topic] (.done filters)] := by
  obtain ⟨f, as, f', is, f'', octets, hclears, hinspects, hwire⟩ := p
  cases hclears with
  | connect | publish | subscribe => cases hd
  | delivery seen filters hf =>
    cases hf.symm.trans hq
    exact ⟨seen, filters, rfl⟩
  | pass hneeds =>
    subst hd
    simp only at hq
    rw [hq] at hneeds
    cases hneeds

/-- At every moment of every run the frames of a peer's stream are, in the order in which they came,
those that have been let through and written, at most one in hand, and those that can still be
taken. What has been asked is what let the first ones through, and then what was asked about the
frame in hand; over this one a pump may have ended. What has gone is the octets of the passages, and
at most a last DISCONNECT to the broker once the relay has ended. -/
theorem forwarded_in_order (g : Gate σ) (session : Session) (hooks : σ) (events : List Event) :
    let s := run g (.start session hooks) events
    Answered g hooks s.journal s.hooks ∧
    ∀ d, ∃ (ps : List (Passage g d)) (hand : List Frame) (rest : List Call) (last : Octets),
      Inlet.frames (stream d events) =
        ps.map (·.taken) ++ hand ++ Inlet.frames (s.source d).inlet.arrived ∧
      taken d s.journal = ps.map (·.taken) ++ hand ∧
      gateCalls d s.journal = ps.flatMap (·.calls) ++ rest ∧
      InHand g d (s.phase d) hand rest ∧ hand.length ≤ 1 ∧
      (s.sink d).outlet.written = ps.flatMap (·.octets) ++ last ∧
      (last = [] ∨ d = .toBroker ∧ last = farewell ∧ s.outcome ≠ none ∧ s.isOver = true) ∧
      ∀ p ∈ ps, ∀ q, d = .toClient → p.taken.packet = .publish q →
        ∃ seen filters, p.authorization = [.authorizeSubscribe seen [q.topic] (.done filters)] := by
  intro s
  refine ⟨run_answered g session hooks events, fun d => ?_⟩
  obtain ⟨ps, hand, rest, htaken, hcalls, hforwarded, hin⟩ :=
    run_accounts g session hooks events d
  obtain ⟨hyields, -⟩ := run_tracks g session hooks events d
  obtain ⟨last, hwritten, hlast⟩ :=
    (run_ends g session hooks events).written (run_wrote g session hooks events) d
  refine ⟨ps, hand, rest, last, ?_, htaken, hcalls, hin, hin.length_le_one, ?_, hlast,
    fun p _ q hd hq => p.delivery hd hq⟩
  · rw [← htaken]
    exact hyields.frames
  · rw [hwritten, hforwarded, List.flatMap_map]

end MqttGateway.Relay
