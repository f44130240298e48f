import MqttGateway.Proofs.Relay.Trail
/-!
# Runs of a relay

An invariant holds of every run if it holds at the start and each kind of step keeps it. Two such
invariants are proved here: the journal tells the truth about the hooks and about what was written,
and a relay that has ended has noted its end last.
-/
namespace MqttGateway.Relay

variable {σ : Type} {g : Gate σ} {s t : State σ} {d : Direction}

/-! ## Invariants -/

/-- What holds at the start and is kept by what peers do, by the moves of the pumps, by the
supervision and by the end holds of every run. -/
theorem run_induction {P : State σ → Prop} (hs : P s)
    (peer : ∀ s d h, P s → P (s.setSource d ((s.source d).after h)))
    (moves : ∀ s t d, P s → Moves g d s t → P t)
    (supervised : ∀ s, P s → P (supervise s))
    (concluded : ∀ s, P s → s.stopped = true → s.isOver = true → s.outcome = none →
      P (conclude g s).1)
    (events : List Event) : P (run g s events) := by
  induction events generalizing s with
  | nil => exact hs
  | cons e events ih =>
    apply ih
    cases e with
    | peer d h => exact peer s d h hs
    | pump d =>
      rcases pump_moves g d s with h | h
      · simpa only [step, pump_rests g h] using hs
      · exact moves s _ d hs h
    | supervise => exact supervised s hs
    | conclude =>
      simp only [step]
      split
      case isTrue h =>
        simp only [Bool.and_eq_true, Option.isNone_iff_eq_none] at h
        exact concluded s hs h.1.1 h.1.2 h.2
      case isFalse => exact hs

theorem run_append (g : Gate σ) (s : State σ) (es fs : List Event) :
    run g s (es ++ fs) = run g (run g s es) fs :=
  List.foldl_append

theorem run_snoc (g : Gate σ) (s : State σ) (events : List Event) (e : Event) :
    run g s (events ++ [e]) = step g (run g s events) e :=
  run_append g s events [e]

@[simp] theorem supervise_phase (s : State σ) (d : Direction) :
    (supervise s).phase d = s.phase d := by
  unfold supervise
  split <;> cases d <;> rfl

@[simp] theorem supervise_source (s : State σ) (d : Direction) :
    (supervise s).source d = s.source d := by
  unfold supervise
  split <;> cases d <;> rfl

@[simp] theorem supervise_journal (s : State σ) : (supervise s).journal = s.journal := by
  unfold supervise
  split <;> rfl

@[simp] theorem supervise_hooks (s : State σ) : (supervise s).hooks = s.hooks := by
  unfold supervise
  split <;> rfl

@[simp] theorem supervise_session (s : State σ) : (supervise s).session = s.session := by
  unfold supervise
  split <;> rfl

@[simp] theorem supervise_connected (s : State σ) : (supervise s).connected = s.connected := by
  unfold supervise
  split <;> rfl

@[simp] theorem supervise_outcome (s : State σ) : (supervise s).outcome = s.outcome := by
  unfold supervise
  split <;> rfl

@[simp] theorem supervise_exits (s : State σ) : (supervise s).exits = s.exits := by
  unfold supervise
  split <;> rfl

theorem State.isOver_iff (s : State σ) : s.isOver = true ↔ ∀ d, (s.phase d).isOver = true := by
  constructor
  · intro h d
    have h := Bool.and_eq_true_iff.mp h
    cases d with
    | toBroker => exact h.1
    | toClient => exact h.2
  · intro h
    exact Bool.and_eq_true_iff.mpr ⟨h .toBroker, h .toClient⟩

theorem State.not_over_of_running (h : (s.phase d).isOver = false) : s.isOver = false := by
  cases hover : s.isOver with
  | false => rfl
  | true =>
    rw [(State.isOver_iff s).mp hover d] at h
    cases h

/-- A pump that is over makes no more turns. -/
theorem Turn.not_over {connected : Bool} {p q : Phase} {e : Option Entry}
    (h : Turn g connected d p e q) : p.isOver = false := by
  cases h <;> rfl

theorem Moves.not_over (h : Moves g d s t) : (s.phase d).isOver = false := by
  obtain ⟨_, _, _, hturn, _, _⟩ := h
  exact hturn.not_over

/-- Only a pump that is writing writes, and what it writes goes in its own direction. -/
theorem Turn.of_wrote {connected : Bool} {c : Direction} {p q : Phase} {f : Frame} {octets : Octets}
    (h : Turn g connected d p (some (.wrote c f octets)) q) :
    c = d ∧ p = .writing f ∧ f.wire = .ok octets := by
  cases h with
  | write hwire => exact ⟨rfl, rfl, hwire⟩

/-! ## How a relay ends -/

/-- The frame that takes the client off the broker. -/
def farewell : Octets :=
  [0xE0, 0x00]

theorem wire_disconnect : (Frame.ofPacket .disconnect).wire = .ok farewell := by
  have hframe : Packet.frame 0xE0 [] = farewell := by
    rw [Packet.frame, List.length_nil, RemainingLength.encode]
    rfl
  show (Packet.fill 0 (Packet.frame 0xE0 [])).mapError CodecError.unencodable = .ok farewell
  rw [hframe]
  rfl

theorem leaveBroker_of_stays (hstays : leavesBroker s = false) : leaveBroker s = (s, []) := by
  simp only [leaveBroker, hstays, Bool.false_eq_true, if_false]

theorem leaveBroker_of_broken {text : String} (hleaves : leavesBroker s = true)
    (hbroken : s.broker.outlet.broken = some text) :
    leaveBroker s = (s, [.brokerDisconnect (.io text)]) := by
  simp only [leaveBroker, hleaves, if_true, writeFrame, wire_disconnect, Outlet.write, hbroken,
    bind, Except.bind]

theorem leaveBroker_of_open (hleaves : leavesBroker s = true)
    (hopen : s.broker.outlet.broken = none) :
    leaveBroker s = ({ s with broker := { s.broker with
      outlet := ⟨s.broker.outlet.written ++ farewell, none⟩ } }.note (.left farewell), []) := by
  simp only [leaveBroker, hleaves, if_true, writeFrame, wire_disconnect, Outlet.write, hopen, bind,
    Except.bind, pure, Except.pure]

/-- The last DISCONNECT is written or nothing changes. -/
theorem leaveBroker_cases (s : State σ) : (leaveBroker s).1 = s ∨
    (leaveBroker s).1 = { s with broker := { s.broker with
      outlet := ⟨s.broker.outlet.written ++ farewell, none⟩ } }.note (.left farewell) := by
  cases hleaves : leavesBroker s with
  | false => exact .inl (by rw [leaveBroker_of_stays hleaves])
  | true =>
    cases hbroken : s.broker.outlet.broken with
    | some text => exact .inl (by rw [leaveBroker_of_broken hleaves hbroken])
    | none => exact .inr (by rw [leaveBroker_of_open hleaves hbroken])

theorem leaveBroker_session (s : State σ) : (leaveBroker s).1.session = s.session := by
  rcases leaveBroker_cases s with h | h <;> rw [h]
  rfl

theorem leaveBroker_hooks (s : State σ) : (leaveBroker s).1.hooks = s.hooks := by
  rcases leaveBroker_cases s with h | h <;> rw [h]
  rfl

theorem leaveBroker_phase (s : State σ) (d : Direction) :
    (leaveBroker s).1.phase d = s.phase d := by
  rcases leaveBroker_cases s with h | h <;> rw [h]
  cases d <;> rfl

theorem conclude_cases (g : Gate σ) (s : State σ) : ∃ reply hooks outcome,
    g.handler.disconnected s.session s.hooks = (reply, hooks) ∧
    (conclude g s).1 = { (leaveBroker s).1 with hooks, outcome := some outcome }.note
      (.disconnected s.session reply) := by
  cases h : g.handler.disconnected s.session s.hooks with
  | mk reply hooks =>
    refine ⟨reply, hooks, (conclude g s).2, rfl, ?_⟩
    simp only [conclude, leaveBroker_session, leaveBroker_hooks, h]

structure Concludes (s t : State σ) : Prop where
  journal : ∃ k, t.journal = s.journal ++ k ∧ ∀ e ∈ k, e.isLast = true
  outcome : t.outcome ≠ none
  session : t.session = s.session
  connected : t.connected = s.connected
  exits : t.exits = s.exits
  stopped : t.stopped = s.stopped
  phase : ∀ d, t.phase d = s.phase d
  inlet : ∀ d, (t.source d).inlet = (s.source d).inlet

theorem conclude_concludes (g : Gate σ) (s : State σ) : Concludes s (conclude g s).1 := by
  obtain ⟨reply, hooks, outcome, -, h⟩ := conclude_cases g s
  rw [h]
  rcases leaveBroker_cases s with hl | hl <;> rw [hl]
  · refine ⟨⟨[_], rfl, by simp [Entry.isLast]⟩, nofun, rfl, rfl, rfl, rfl, ?_, ?_⟩ <;>
      exact fun d => by cases d <;> rfl
  · refine ⟨⟨_, List.append_assoc .., by simp [Entry.isLast]⟩, nofun, rfl, rfl, rfl, rfl,
      ?_, ?_⟩ <;> exact fun d => by cases d <;> rfl

structure Ends (s : State σ) : Prop where
  running : s.outcome = none → ∀ e ∈ s.journal, e.isLast = false
  ended : s.outcome ≠ none → s.isOver = true ∧ ∃ j last reply,
    s.journal = j ++ last ++ [.disconnected s.session reply] ∧ (∀ e ∈ j, e.isLast = false) ∧
    (last = [] ∨ last = [.left farewell])

theorem Ends.start (session : Session) (hooks : σ) : Ends (State.start session hooks) :=
  ⟨fun _ _ he => absurd he List.not_mem_nil, fun h => absurd rfl h⟩

theorem Performs.journal {e : Option Entry} (h : Performs g d s e t) :
    t.journal = s.journal ++ e.toList := by
  cases h <;> simp [State.setSink]

theorem Performs.isLast {e : Option Entry} (h : Performs g d s e t) :
    ∀ a ∈ e, a.isLast = false := by
  cases h <;> simp [Entry.isLast]

theorem Performs.outcome {e : Option Entry} (h : Performs g d s e t) :
    t.outcome = s.outcome := by
  cases h <;> simp [State.setSink]

theorem Performs.exits {e : Option Entry} (h : Performs g d s e t) : t.exits = s.exits := by
  cases h <;> simp [State.setSink]

theorem Performs.stopped {e : Option Entry} (h : Performs g d s e t) : t.stopped = s.stopped := by
  cases h <;> simp [State.setSink]

theorem Performs.phase {e : Option Entry} (h : Performs g d s e t) (c : Direction) :
    t.phase c = s.phase c := by
  cases h <;> simp [State.setSink]

theorem Performs.enter_journal {e : Option Entry} (h : Performs g d s e t) (q : Phase) :
    (t.enter d q).journal = s.journal ++ e.toList := by
  rw [State.enter_journal, h.journal]

theorem Performs.enter_phase_of_ne {e : Option Entry} (h : Performs g d s e t) (q : Phase)
    {c : Direction} (hc : c ≠ d) : (t.enter d q).phase c = s.phase c := by
  rw [State.enter_phase_of_ne _ _ _ hc, h.phase]

/-- Only the taking of a frame changes what can still be read. -/
theorem Performs.inlet {c : Direction} {e : Option Entry} (h : Performs g c s e t)
    (he : ∀ f, e ≠ some (.took d f)) : (t.source d).inlet = (s.source d).inlet := by
  cases h with
  | @take f rest =>
    have hcd : d ≠ c := fun hdc => he f (hdc ▸ rfl)
    rw [State.note_source, State.setSource_source_of_ne _ _ _ hcd]
  | write => cases c <;> cases d <;> rfl
  | _ => simp

/-- A journal stays orderly if what a pump notes is allowed. -/
theorem Orderly.enter {R : List Entry → Entry → Prop} {e : Option Entry} (hj : Orderly R s.journal)
    (h : Performs g d s e t) (q : Phase) (he : ∀ a, e = some a → R s.journal a) :
    Orderly R (t.enter d q).journal := by
  rw [h.enter_journal]
  cases e with
  | none => simpa using hj
  | some a => exact hj.snoc (he a rfl)

/-- A journal stays orderly if the last DISCONNECT and then the call of the last hook are allowed.
-/
theorem Orderly.conclude {R : List Entry → Entry → Prop} (hj : Orderly R s.journal)
    (hleft : R s.journal (.left farewell))
    (hdisconnected : ∀ k reply, (∀ e ∈ k, e.isLast = true) →
      R (s.journal ++ k) (.disconnected s.session reply)) :
    Orderly R (conclude g s).1.journal := by
  obtain ⟨reply, hooks, outcome, -, h⟩ := conclude_cases g s
  rw [h]
  rcases leaveBroker_cases s with hl | hl <;> rw [hl]
  · show Orderly R (s.journal ++ [.disconnected s.session reply])
    have hlast := hdisconnected [] reply fun _ h => absurd h List.not_mem_nil
    rw [List.append_nil] at hlast
    exact hj.snoc hlast
  · show Orderly R (s.journal ++ [.left farewell] ++ [.disconnected s.session reply])
    exact (hj.snoc hleft).snoc (hdisconnected [.left farewell] reply (by simp [Entry.isLast]))

/-- An invariant that the connections have no part in, nor whether the relay stops or how it ends,
holds of every run together with what it allows of each entry. -/
theorem run_orderly {P : State σ → Prop} {R : List Entry → Entry → Prop} (hs : P s)
    (hj : Orderly R s.journal)
    (of_eq : ∀ {s t : State σ}, P s → t.journal = s.journal → t.session = s.session →
      t.connected = s.connected → (∀ d, t.phase d = s.phase d) → P t)
    (moves : ∀ {s t : State σ} {d : Direction}, P s → Moves g d s t → P t)
    (admits : ∀ {s t : State σ} {d : Direction} {e : Entry} {q : Phase}, P s →
      Turn g s.connected d (s.phase d) (some e) q → Performs g d s (some e) t → R s.journal e)
    (concludes : ∀ {s t : State σ}, P s → Concludes s t → P t)
    (left : ∀ {s : State σ}, P s → R s.journal (.left farewell))
    (disconnected : ∀ {s : State σ}, P s → ∀ k reply, (∀ e ∈ k, e.isLast = true) →
      R (s.journal ++ k) (.disconnected s.session reply))
    (events : List Event) : P (run g s events) ∧ Orderly R (run g s events).journal := by
  refine run_induction (P := fun s => P s ∧ Orderly R s.journal) ⟨hs, hj⟩ ?_ ?_ ?_ ?_ events
  · rintro s d h ⟨hs, hj⟩
    exact ⟨of_eq hs (by simp) (by simp) (by simp) (by simp), by simpa using hj⟩
  · rintro s t d ⟨hs, hj⟩ hmoves
    refine ⟨moves hs hmoves, ?_⟩
    obtain ⟨e, q, r, hturn, hperf, rfl⟩ := hmoves
    refine hj.enter hperf q fun a ha => ?_
    subst ha
    exact admits hs hturn hperf
  · rintro s ⟨hs, hj⟩
    exact ⟨of_eq hs (by simp) (by simp) (by simp) (by simp), by simpa using hj⟩
  · rintro s ⟨hs, hj⟩ - - -
    exact ⟨concludes hs (conclude_concludes g s), hj.conclude (left hs) (disconnected hs)⟩

theorem Ends.moves (hs : Ends s) (h : Moves g d s t) : Ends t := by
  have hout : s.outcome = none := by
    cases hout : s.outcome with
    | none => rfl
    | some outcome =>
      have hover := (State.isOver_iff s).mp (hs.ended (by simp [hout])).1 d
      rw [h.not_over] at hover
      cases hover
  obtain ⟨e, p, r, hturn, hperf, rfl⟩ := h
  constructor
  · intro _ a ha
    rw [hperf.enter_journal, List.mem_append] at ha
    rcases ha with ha | ha
    · exact hs.running hout a ha
    · exact hperf.isLast a (Option.mem_toList.mp ha)
  · intro h
    rw [State.enter_outcome, hperf.outcome] at h
    exact absurd hout h

theorem run_ends (g : Gate σ) (session : Session) (hooks : σ) (events : List Event) :
    Ends (run g (.start session hooks) events) := by
  refine run_induction (Ends.start session hooks) ?_ (fun _ _ _ => Ends.moves) ?_ ?_ events
  · intro s d h hs
    refine ⟨by simpa using hs.running, ?_⟩
    simpa [State.isOver_iff] using hs.ended
  · intro s hs
    refine ⟨by simpa using hs.running, ?_⟩
    simpa [State.isOver_iff] using hs.ended
  · intro s hs _ hover hout
    obtain ⟨reply, hooks, outcome, -, h⟩ := conclude_cases g s
    refine ⟨fun h' => by simp [h] at h', fun _ => ?_⟩
    rcases leaveBroker_cases s with hl | hl <;> rw [h, hl]
    · exact ⟨hover, s.journal, [], reply, by simp, hs.running hout, .inl rfl⟩
    · exact ⟨hover, s.journal, [.left farewell], reply, by simp, hs.running hout, .inr rfl⟩

/-- The journal only grows. -/
theorem run_journal (g : Gate σ) (s : State σ) (events : List Event) :
    s.journal <+: (run g s events).journal := by
  refine run_induction (P := fun t => s.journal <+: t.journal) List.prefix_rfl ?_ ?_ ?_ ?_ events
  · intro t d h ht
    simpa using ht
  · rintro t _ d ht ⟨e, p, r, -, hperf, rfl⟩
    rw [hperf.enter_journal]
    exact ht.trans (List.prefix_append ..)
  · intro t ht
    simpa using ht
  · intro t ht _ _ _
    obtain ⟨k, hk, -⟩ := (conclude_concludes g t).journal
    exact ht.trans ⟨k, hk.symm⟩

/-- Only its own steps change the phase of a pump. -/
theorem step_phase {e : Event} (he : e ≠ .pump d) : (step g s e).phase d = s.phase d := by
  cases e with
  | peer c h => simp [step]
  | pump c =>
    have hc : d ≠ c := fun h => he (h ▸ rfl)
    rcases pump_moves g c s with h | ⟨e, q, r, -, hperf, h⟩
    · rw [step, pump_rests g h]
    · rw [step, h, hperf.enter_phase_of_ne _ hc]
  | supervise => simp [step]
  | conclude =>
    simp only [step]
    split
    case isFalse => rfl
    case isTrue => exact (conclude_concludes g s).phase d

/-- Only the peer of a pump and its own steps change what it can still read. -/
theorem step_inlet {e : Event} (hpump : e ≠ .pump d) (hpeer : ∀ h, e ≠ .peer d h) :
    ((step g s e).source d).inlet = (s.source d).inlet := by
  cases e with
  | peer c h =>
    have hcd : d ≠ c := fun hdc => hpeer h (hdc ▸ rfl)
    rw [step, State.setSource_source_of_ne _ _ _ hcd]
  | pump c =>
    rcases pump_moves g c s with h | ⟨e, q, r, -, hperf, h⟩
    · rw [step, pump_rests g h]
    · rw [step, h, State.enter_source]
      refine hperf.inlet fun f he => ?_
      subst he
      cases hperf with
      | take => exact hpump rfl
  | supervise => rw [step, supervise_source]
  | conclude =>
    simp only [step]
    split
    case isFalse => rfl
    case isTrue => exact (conclude_concludes g s).inlet d

/-- If each step of a pump lowers the rank of its phase, then so many steps lower it by as much,
whatever happens between them. -/
theorem run_countdown {P : State σ → Prop} {rank : Phase → Nat}
    (keeps : ∀ s e, P s → P (step g s e))
    (lowers : ∀ s, P s → rank ((pump g d s).phase d) ≤ rank (s.phase d) - 1) (hs : P s)
    (events : List Event) :
    rank ((run g s events).phase d) ≤ rank (s.phase d) - events.count (.pump d) := by
  induction events generalizing s with
  | nil => exact Nat.le_refl _
  | cons e events ih =>
    have hrest := ih (keeps s e hs)
    rw [run, List.foldl_cons, List.count_cons]
    rw [run] at hrest
    by_cases he : e = .pump d
    · subst he
      have hstep := lowers s hs
      rw [step] at hrest ⊢
      simp only [beq_self_eq_true, if_true]
      omega
    · rw [step_phase he] at hrest
      simpa [he] using hrest

/-! ## The truth of the journal -/

theorem Performs.answeredBy {call : Call} (h : Performs g d s (some (.called d call)) t) :
    call.AnsweredBy g s.hooks t.hooks := by
  cases h with
  | call hcall => exact hcall

theorem Performs.answered {e : Option Entry} {before : σ} (h : Performs g d s e t)
    (hs : Answered g before s.journal s.hooks) : Answered g before t.journal t.hooks := by
  cases h with
  | nothing => exact hs
  | call hcall => exact hs.snoc hcall
  | take hstop htake => simpa using hs.snoc (e := .took d _) rfl
  | look => exact hs.snoc (e := .looked d _) rfl
  | store session => exact hs.snoc (e := .stored session) rfl
  | write hw hb => simpa [State.setSink] using hs.snoc (e := .wrote d _ _) rfl

/-- The answers in the journal are all that the hooks and the interceptor have given. -/
theorem run_answered (g : Gate σ) (session : Session) (hooks : σ) (events : List Event) :
    Answered g hooks (run g (.start session hooks) events).journal
      (run g (.start session hooks) events).hooks := by
  refine run_induction (P := fun s => Answered g hooks s.journal s.hooks) .nil ?_ ?_ ?_ ?_ events
  · intro s d h hs
    simpa using hs
  · rintro s _ d hs ⟨e, p, r, -, hperf, rfl⟩
    simpa using hperf.answered hs
  · intro s hs
    simpa using hs
  · intro s hs _ _ _
    obtain ⟨reply, hooks, outcome, hd, h⟩ := conclude_cases g s
    rw [h]
    rcases leaveBroker_cases s with hl | hl <;> rw [hl]
    · exact hs.snoc hd
    · exact (hs.snoc (e := .left farewell) rfl).snoc hd

theorem arrive_written (link : Link) (octets : Octets) :
    (link.arrive octets).outlet.written = link.outlet.written := by
  unfold Link.arrive
  split <;> rfl

theorem halfClose_written (link : Link) :
    link.halfClose.outlet.written = link.outlet.written := by
  unfold Link.halfClose
  split <;> rfl

theorem after_written (link : Link) (h : Happening) :
    (link.after h).outlet.written = link.outlet.written := by
  cases h with
  | arrive octets => exact arrive_written link octets
  | halfClose => exact halfClose_written link
  | failReading text => rfl
  | failWriting text => rfl

def Wrote (s : State σ) : Prop :=
  ∀ d, (s.sink d).outlet.written = s.journal.flatMap (·.octetsTo d)

theorem Performs.wrote {e : Option Entry} (h : Performs g d s e t) (hs : Wrote s) : Wrote t := by
  intro c
  have hc := hs c
  cases h with
  | nothing => exact hc
  | look => simpa [State.sink, Entry.octetsTo] using hc
  | call hcall => simpa [State.sink, Entry.octetsTo] using hc
  | store session => simpa [State.sink, Entry.octetsTo] using hc
  | take hstop htake =>
    cases c <;> cases d <;>
      simpa [State.sink, State.source, State.setSource, State.note, Direction.opposite,
        Entry.octetsTo] using hc
  | write hw hb =>
    cases c <;> cases d <;>
      simpa [State.sink, State.setSink, State.source, State.setSource, State.note,
        Direction.opposite, Entry.octetsTo] using hc

theorem run_wrote (g : Gate σ) (session : Session) (hooks : σ) (events : List Event) :
    Wrote (run g (.start session hooks) events) := by
  refine run_induction (P := Wrote) (fun d => by cases d <;> rfl) ?_ ?_ ?_ ?_ events
  · intro s d h hs c
    have hc := hs c
    cases c <;> cases d <;>
      simpa [State.sink, State.source, State.setSource, Direction.opposite, after_written] using hc
  · rintro s _ d hs ⟨e, p, r, -, hperf, rfl⟩ c
    simpa [State.sink] using hperf.wrote hs c
  · intro s hs c
    simpa [State.sink] using hs c
  · intro s hs _ _ _ c
    obtain ⟨reply, hooks, outcome, -, h⟩ := conclude_cases g s
    have hc := hs c
    rw [h]
    rcases leaveBroker_cases s with hl | hl <;> rw [hl] <;> cases c <;>
      simpa [State.sink, State.source, State.note, Direction.opposite, Entry.octetsTo] using hc

end MqttGateway.Relay
