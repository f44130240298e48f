import MqttGateway.Proofs.Frame.Editing
import MqttGateway.Proofs.Frame.Framing
import MqttGateway.Proofs.Relay.FirstExit
import MqttGateway.Proofs.Relay.Foresight
import MqttGateway.Proofs.Relay.Policing
/-!
# A relay that changes nothing

Main statement: where nobody has anything against what a peer sends, the other gets it octet by
octet. What has been written and what is in hand is at every moment all that was taken, and a pump
whose peer has closed its connection gives everything on, unless the other pump ends first.
-/
namespace MqttGateway.Relay

variable {σ : Type} {g : Gate σ} {s t : State σ} {c d : Direction} {events : List Event}

/-! ## Whoever is asked -/

structure Gate.Transparent (g : Gate σ) : Prop where
  interceptor : g.interceptor = none
  authorizeConnect : ∀ s state, (g.handler.authorizeConnect s state).1 = .done s
  authorizePublish : ∀ s content state,
    (g.handler.authorizePublish s content state).1 = .done content
  authorizeSubscribe : ∀ s filters state,
    (g.handler.authorizeSubscribe s filters state).1 = .done filters
  connected : ∀ s state, (g.handler.connected s state).1 = .done ()
  published : ∀ s content state, (g.handler.published s content state).1 = .done ()
  subscribed : ∀ s filters state, (g.handler.subscribed s filters state).1 = .done ()
  unsubscribed : ∀ s filters state, (g.handler.unsubscribed s filters state).1 = .done ()

def Call.Unchanged : Call → Prop
  | .authorizeConnect s r => r = .done s
  | .authorizePublish _ content r => r = .done content
  | .authorizeSubscribe _ filters r => r = .done filters
  | .intercept _ f _ r => r = .done f
  | .connected _ r => r = .done ()
  | .published _ _ r => r = .done ()
  | .subscribed _ _ r => r = .done ()
  | .unsubscribed _ _ r => r = .done ()

theorem Gate.Transparent.unchanged (hg : g.Transparent) {call : Call} {before after : σ}
    (h : call.AnsweredBy g before after) : call.Unchanged := by
  cases call with
  | authorizeConnect s r => exact (congrArg Prod.fst h).symm.trans (hg.authorizeConnect s before)
  | authorizePublish s content r =>
    exact (congrArg Prod.fst h).symm.trans (hg.authorizePublish s content before)
  | authorizeSubscribe s filters r =>
    exact (congrArg Prod.fst h).symm.trans (hg.authorizeSubscribe s filters before)
  | intercept s f d r =>
    obtain ⟨i, hi, -⟩ := h
    rw [hg.interceptor] at hi
    cases hi
  | connected s r => exact (congrArg Prod.fst h).symm.trans (hg.connected s before)
  | published s content r =>
    exact (congrArg Prod.fst h).symm.trans (hg.published s content before)
  | subscribed s filters r =>
    exact (congrArg Prod.fst h).symm.trans (hg.subscribed s filters before)
  | unsubscribed s filters r =>
    exact (congrArg Prod.fst h).symm.trans (hg.unsubscribed s filters before)

theorem Gate.Transparent.performs (hg : g.Transparent) {e : Option Entry} (h : Performs g d s e t)
    (call : Call) (he : e = some (.called d call)) : call.Unchanged := by
  subst he
  exact hg.unchanged h.answeredBy

theorem Notifies.done {seen : Session} {packet : Packet} {call : Call} {reply : Reply Unit}
    (h : Notifies seen packet call reply) (hcall : call.Unchanged) : reply = .done () := by
  cases h <;> exact hcall

/-! ## What is in hand -/

def Phase.cleared : Phase → List Frame
  | .intercepting _ f => [f]
  | .writing f => [f]
  | _ => []

def Phase.pending : Phase → List Frame
  | .authorizing _ f => [f]
  | .storing _ f => [f]
  | _ => []

def Phase.held (p : Phase) : List Frame :=
  p.cleared ++ p.pending

theorem Phase.held_of_isOver {p : Phase} (h : p.isOver = true) : p.held = [] := by
  cases p <;> first | rfl | cases h

def Phase.fails : Phase → Bool
  | .ended (some _) => true
  | .crashed => true
  | _ => false

theorem Phase.ended_of_not_fails {p : Phase} (hover : p.isOver = true) (h : p.fails = false) :
    p = .ended none := by
  cases p with
  | ended fault => cases fault <;> first | rfl | cases h
  | crashed => cases h
  | _ => cases hover

/-- An authorized frame goes on as it is, unless it asks for no topics. -/
theorem Authorizes.unchanged {seen : Session} {f : Frame} {call : Call} {q : Phase}
    (h : Authorizes seen f d call q) (hcall : call.Unchanged) :
    q = .intercepting none f ∨
    f.kind = .connect ∧ (∃ session, q = .storing session f) ∨
    d = .toBroker ∧ q.fails = true ∧ ∃ p, f.packet = .subscribe p ∧ p.filters = [] := by
  cases h with
  | @connect c reply hf =>
    obtain rfl : reply = .done _ := hcall
    refine .inr (.inl ⟨by rw [Frame.kind, hf]; rfl, seen.withConnect c, ?_⟩)
    rw [Phase.ofReply, Frame.withIdentity_self]
  | publish reply hf =>
    obtain rfl : reply = .done _ := hcall
    exact .inl (congrArg _ (if_pos rfl))
  | @subscribe p reply hf =>
    obtain rfl : reply = .done _ := hcall
    by_cases hnone : p.filters = []
    · refine .inr (.inr ⟨rfl, ?_, p, hf, hnone⟩)
      rw [Phase.ofReply, if_pos hnone]
      rfl
    · refine .inl ?_
      rw [Phase.ofReply, if_neg hnone, Frame.withFilters, if_pos rfl]
  | delivery reply hf =>
    obtain rfl : reply = .done _ := hcall
    exact .inl rfl

/-- A turn that does not fail clears what was pending or writes what was cleared, and changes no
frame by it. -/
theorem Turn.conserves {connected : Bool} {p q : Phase} {e : Option Entry}
    (h : Turn g connected d p e q) (hg : g.interceptor = none)
    (hcall : ∀ call, e = some (.called d call) → call.Unchanged) (hq : q.fails = false) :
    ∃ new, p.cleared ++ new = (forwarded d e.toList).map (·.1) ++ q.cleared ∧
      p.pending ++ taken d e.toList = new ++ q.pending := by
  cases h with
  | halt error => exact ⟨[], rfl, rfl⟩
  | overrun => cases hq
  | take f => exact ⟨[], rfl, by simp [taken, Phase.pending]⟩
  | lookToAuthorize seen f => exact ⟨[], rfl, rfl⟩
  | again => cases hq
  | @authorize seen f call _ hauth _ =>
    rcases hauth.unchanged (hcall call rfl) with rfl | ⟨-, session, rfl⟩ | ⟨-, hfails, -⟩
    · exact ⟨[f], rfl, rfl⟩
    · exact ⟨[], rfl, rfl⟩
    · rw [hq] at hfails
      cases hfails
  | pass => exact ⟨_, rfl, rfl⟩
  | store session f => exact ⟨[f], rfl, rfl⟩
  | lookToIntercept seen f => exact ⟨[], rfl, rfl⟩
  | intercept reply hi =>
    rw [hg] at hi
    cases hi
  | unseen => exact ⟨[], rfl, rfl⟩
  | write hwire =>
    refine ⟨[], ?_, ?_⟩ <;> cases d <;> simp [forwarded, taken, Phase.afterWriting, Phase.cleared,
      Phase.pending]
  | unwritten => cases hq
  | lookToNotify seen f => exact ⟨[], rfl, rfl⟩
  | @notify _ _ call _ hnotifies =>
    obtain rfl := hnotifies.done (hcall call rfl)
    exact ⟨[], rfl, rfl⟩
  | untold => exact ⟨[], rfl, rfl⟩

/-- A session is stored for a CONNECT that is in hand. -/
theorem Turn.storing {connected : Bool} {p q : Phase} {e : Option Entry}
    (h : Turn g connected d p e q)
    (hcall : ∀ call, e = some (.called d call) → call.Unchanged) :
    (∀ session f, q = .storing session f → f.kind = .connect) ∧
    ∀ session, e = some (.stored session) →
      ∃ f, p = .storing session f ∧ q = .intercepting none f := by
  cases h with
  | @authorize seen f call _ hauth _ =>
    refine ⟨fun session f' hq => ?_, fun _ => nofun⟩
    rcases hauth.unchanged (hcall call rfl) with rfl | ⟨hkind, session', rfl⟩ | ⟨-, hfails, -⟩
    · cases hq
    · cases hq
      exact hkind
    · rw [hq] at hfails
      cases hfails
  | store session f => exact ⟨fun _ _ => nofun, fun _ he => by cases he; exact ⟨f, rfl, rfl⟩⟩
  | intercept reply _ => cases reply <;> exact ⟨fun _ _ => nofun, fun _ => nofun⟩
  | @notify _ _ _ reply _ => cases reply <;> exact ⟨fun _ _ => nofun, fun _ => nofun⟩
  | write => cases d <;> exact ⟨fun _ _ => nofun, fun _ => nofun⟩
  | _ => exact ⟨fun _ _ => nofun, fun _ => nofun⟩

/-- A turn fails at a read or at a write, or with a frame that the relay itself does not let pass. -/
theorem Turn.of_fails {connected : Bool} {p q : Phase} {e : Option Entry}
    (h : Turn g connected d p e q) (hg : g.interceptor = none)
    (hcall : ∀ call, e = some (.called d call) → call.Unchanged) (hq : q.fails = true) :
    p = .reading ∨ (∃ f, p = .writing f) ∨
    d = .toBroker ∧ ∃ seen f, p = .authorizing (some seen) f ∧
      (f.kind = .connect ∧ connected = true ∨ ∃ a, f.packet = .subscribe a ∧ a.filters = []) := by
  cases h with
  | halt | overrun => exact .inl rfl
  | @again seen f c hd hf hconnected =>
    exact .inr (.inr ⟨hd, seen, f, rfl, .inl ⟨by rw [Frame.kind, hf]; rfl, hconnected⟩⟩)
  | @authorize seen f call _ hauth _ =>
    rcases hauth.unchanged (hcall call rfl) with rfl | ⟨-, session, rfl⟩ | ⟨hd, -, hsubscribe⟩
    · cases hq
    · cases hq
    · exact .inr (.inr ⟨hd, seen, f, rfl, .inr hsubscribe⟩)
  | intercept reply hi =>
    rw [hg] at hi
    cases hi
  | write | unwritten => exact .inr (.inl ⟨_, rfl⟩)
  | @notify _ _ call _ hnotifies =>
    obtain rfl := hnotifies.done (hcall call rfl)
    cases hq
  | _ => cases hq

/-! ## A step of a pump -/

def gone (d : Direction) (s : State σ) : List Frame :=
  (forwarded d s.journal).map (·.1) ++ (s.phase d).cleared

structure Carries (d : Direction) (s : State σ) : Prop where
  unhurt : (s.phase d).fails = false
  frames : taken d s.journal = gone d s ++ (s.phase d).pending
  storing : ∀ session f, s.phase d = .storing session f → f.kind = .connect
  connected : d = .toBroker → s.connected = true → ∃ f ∈ gone d s, f.kind = .connect

theorem Carries.start (session : Session) (hooks : σ) (d : Direction) :
    Carries d (State.start session hooks) := by
  have hp : (State.start session hooks).phase d = .reading := by cases d <;> rfl
  refine ⟨?_, ?_, ?_, fun _ hconnected => by cases hconnected⟩
  · rw [hp]
    rfl
  · rw [gone, hp]
    rfl
  · intro session f hstoring
    rw [hp] at hstoring
    cases hstoring

theorem Carries.of_eq (hs : Carries d s) (htaken : taken d t.journal = taken d s.journal)
    (hforwarded : forwarded d t.journal = forwarded d s.journal)
    (hconnected : d = .toBroker → t.connected = s.connected) (hphase : t.phase d = s.phase d) :
    Carries d t := by
  have hgone : gone d t = gone d s := by rw [gone, hforwarded, hphase, gone]
  refine ⟨by rw [hphase]; exact hs.unhurt, ?_, by rw [hphase]; exact hs.storing, ?_⟩
  · rw [htaken, hgone, hphase]
    exact hs.frames
  · intro hd hconn
    rw [hconnected hd] at hconn
    rw [hgone]
    exact hs.connected hd hconn

/-- A pump that makes a move without failing has not changed or lost a frame by it. -/
theorem Carries.moves (hg : g.Transparent) (hs : Carries d s) (h : Moves g d s t)
    (hunhurt : (t.phase d).fails = false) : Carries d t := by
  obtain ⟨e, q, r, hturn, hperf, rfl⟩ := h
  rw [State.enter_phase] at hunhurt
  have hcall := hg.performs hperf
  obtain ⟨new, hcleared, hpending⟩ := hturn.conserves hg.interceptor hcall hunhurt
  obtain ⟨hstoring, hstored⟩ := hturn.storing hcall
  have hgone : gone d (r.enter d q) = gone d s ++ new := by
    rw [gone, gone, hperf.enter_journal, State.enter_phase, forwarded_append, List.map_append,
      List.append_assoc, List.append_assoc, hcleared]
  refine ⟨by rwa [State.enter_phase], ?_, by rwa [State.enter_phase], ?_⟩
  · rw [hperf.enter_journal, taken_append, hs.frames, hgone, State.enter_phase, List.append_assoc,
      List.append_assoc, hpending]
  · intro hd hconn
    rw [State.enter_connected, hperf.connected, Bool.or_eq_true] at hconn
    rcases hconn with hconn | hnew
    · obtain ⟨f, hf, hkind⟩ := hs.connected hd hconn
      exact ⟨f, by rw [hgone]; exact List.mem_append_left _ hf, hkind⟩
    · -- the frame of the stored session is the one that now goes on
      obtain ⟨session, rfl⟩ : ∃ session, e = some (.stored session) := by
        cases e with
        | none => cases hnew
        | some a => cases a <;> first | exact ⟨_, rfl⟩ | cases hnew
      obtain ⟨f, hp, rfl⟩ := hstored session rfl
      refine ⟨f, ?_, hs.storing session f hp⟩
      rw [gone, State.enter_phase]
      exact List.mem_append_right _ (List.mem_singleton_self f)

/-- What others do changes nothing of what a pump carries. -/
theorem Carries.step (hs : Carries d s) {first : Session} (hknows : Knows g first s) {e : Event}
    (he : e ≠ .pump d) : Carries d (Relay.step g s e) := by
  cases e with
  | peer c h =>
    have hjournal : (Relay.step g s (.peer c h)).journal = s.journal := by simp [Relay.step]
    refine hs.of_eq (by rw [hjournal]) (by rw [hjournal]) (fun _ => ?_) ?_ <;> simp [Relay.step]
  | pump c =>
    have hcd : c ≠ d := fun h => he (h ▸ rfl)
    rcases pump_moves g c s with h | ⟨e, q, r, hturn, hperf, h⟩
    · rwa [Relay.step, pump_rests g h]
    · obtain ⟨htaken, -, hforwarded⟩ := hperf.elsewhere hcd
      rw [Relay.step, h]
      refine hs.of_eq ?_ ?_ ?_ (hperf.enter_phase_of_ne q (Ne.symm hcd))
      · rw [hperf.enter_journal, taken_append, htaken, List.append_nil]
      · rw [hperf.enter_journal, forwarded_append, hforwarded, List.append_nil]
      · rintro rfl
        cases c with
        | toBroker => exact absurd rfl hcd
        | toClient =>
          obtain ⟨-, -, hstored, -⟩ := hturn.ne_storing hknows.idle
          rw [State.enter_connected, hperf.connected, hstored]
          simp
  | supervise =>
    have hjournal : (Relay.step g s .supervise).journal = s.journal := by simp [Relay.step]
    refine hs.of_eq (by rw [hjournal]) (by rw [hjournal]) (fun _ => ?_) ?_ <;> simp [Relay.step]
  | conclude =>
    simp only [Relay.step]
    split
    case isFalse => exact hs
    case isTrue =>
      have hend := conclude_concludes g s
      obtain ⟨k, hk, hlast⟩ := hend.journal
      refine hs.of_eq ?_ ?_ (fun _ => hend.connected) (hend.phase d)
      · rw [hk, taken_append, taken_last hlast, List.append_nil]
      · rw [hk, forwarded_append, forwarded_last hlast, List.append_nil]

/-- The relay itself has nothing against these frames on their way to the broker. -/
structure Presentable (fs : List Frame) : Prop where
  once : fs.countP (·.kind = .connect) ≤ 1
  topics : ∀ f ∈ fs, ∀ p, f.packet = .subscribe p → p.filters ≠ []

theorem Presentable.of_isPrefix {fs gs : List Frame} (h : Presentable gs) (hfs : fs <+: gs) :
    Presentable fs :=
  ⟨Nat.le_trans hfs.sublist.countP_le h.once, fun f hf => h.topics f (hfs.subset hf)⟩

theorem read_not_fails (htake : ∀ halt rest, (s.source d).inlet.take ≠ .failed halt rest)
    (hp : s.phase d = .reading) : ((read s d).phase d).fails = false := by
  rw [read_phase hp]
  split
  · rfl
  · split
    case h_3 h => exact absurd h (htake _ _)
    case h_4 h => exact absurd h (htake _ _)
    all_goals rfl

theorem write_not_fails {f : Frame} (hf : f.Intact) (hbroken : (s.sink d).outlet.broken = none) :
    ((write s d f).phase d).fails = false := by
  obtain ⟨octets, hreceived, -⟩ := hf
  simp only [write, writeFrame, Frame.wire_of_some hreceived, Outlet.write, hbroken, bind,
    Except.bind, pure, Except.pure, State.enter_phase]
  cases d <;> rfl

/-- A pump does not fail with what may pass, as long as it can be read and written. -/
theorem Carries.not_fails (hg : g.Transparent) (hs : Carries d s) (h : Moves g d s (pump g d s))
    (hintact : ∀ f ∈ taken d s.journal, f.Intact) (hbroken : (s.sink d).outlet.broken = none)
    (htake : ∀ halt rest, (s.source d).inlet.take ≠ .failed halt rest)
    (hpresentable : d = .toBroker → Presentable (taken d s.journal)) :
    ((pump g d s).phase d).fails = false := by
  obtain ⟨e, q, r, hturn, hperf, heq⟩ := h
  have hcall := hg.performs hperf
  by_contra hfails
  have hq : q.fails = true := by
    rw [heq, State.enter_phase] at hfails
    simpa using hfails
  rcases hturn.of_fails hg.interceptor hcall hq with hp | ⟨f, hp⟩ | ⟨hd, seen, f, hp, hf⟩
  · refine hfails ?_
    rw [pump, hp]
    exact read_not_fails htake hp
  · refine hfails ?_
    rw [pump, hp]
    refine write_not_fails (hintact f ?_) hbroken
    rw [hs.frames, gone, hp]
    simp [Phase.cleared]
  · have hframes : taken d s.journal = gone d s ++ [f] := by
      rw [hs.frames, hp]
      rfl
    have hpass := hpresentable hd
    rw [hframes] at hpass
    rcases hf with ⟨hkind, hconnected⟩ | ⟨a, hf, hnone⟩
    · -- the authorized CONNECT is another one
      obtain ⟨f', hf', hkind'⟩ := hs.connected hd hconnected
      have hearlier : 0 < (gone d s).countP (·.kind = .connect) :=
        List.countP_pos_iff.mpr ⟨f', hf', by simpa using hkind'⟩
      have honce := hpass.once
      rw [List.countP_append, List.countP_singleton, if_pos (by simpa using hkind)] at honce
      omega
    · exact hpass.topics f (List.mem_append_right _ (List.mem_singleton_self f)) a hf hnone

/-! ## Runs -/

/-- What arrives in a direction is frames that may pass, and neither they nor what comes of them fail
on the way. -/
structure Smooth (d : Direction) (events : List Event) : Prop where
  whole : Inlet.unread (stream d events) = []
  reads : ∀ text, .peer d (.failReading text) ∉ events
  writes : ∀ text, .peer d.opposite (.failWriting text) ∉ events
  presentable : d = .toBroker → Presentable (Inlet.frames (stream d events))

/-- What has been taken stands in the whole stream before all that can still be taken. -/
theorem run_yields (g : Gate σ) (session : Session) (hooks : σ) (before after : List Event)
    (d : Direction) :
    let s := run g (.start session hooks) before
    let later := after.foldl (awaited d) (s.source d).inlet
    Inlet.Yields (stream d (before ++ after)) (taken d s.journal) later.arrived ∧
      later.ending = ((before ++ after).foldl (awaited d) ⟨[], .open⟩).ending := by
  intro s later
  obtain ⟨hyields, hending⟩ := run_tracks g session hooks before d
  rw [foldl_offered_inlet] at hyields hending
  rw [stream, foldl_offered_inlet, List.foldl_append]
  generalize before.foldl (awaited d) ({} : Link).inlet = first at hyields hending
  obtain ⟨arrived, ending⟩ := first
  cases hending
  have hlater : later = ⟨(s.source d).inlet.arrived ++
      (after.foldl (awaited d) ⟨[], (s.source d).inlet.ending⟩).arrived,
      (after.foldl (awaited d) ⟨[], (s.source d).inlet.ending⟩).ending⟩ := foldl_awaited ..
  rw [hlater, foldl_awaited]
  exact ⟨hyields.append _, rfl⟩

theorem Smooth.take_ne_failed (g : Gate σ) (session : Session) (hooks : σ)
    {before after : List Event} (h : Smooth d (before ++ after)) (halt : Halt) (rest : Octets) :
    ((run g (.start session hooks) before).source d).inlet.take ≠ .failed halt rest := by
  intro htake
  obtain ⟨hyields, hending⟩ := run_yields g session hooks before after d
  have hreads (text : String) : .peer d (.failReading text) ∉ after :=
    fun he => h.reads text (List.mem_append_right _ he)
  -- what fails now fails in the same way once everything has arrived
  have hlater := take_foldl_awaited (by rw [htake]; nofun) hreads
  rw [htake] at hlater
  have hopen (text : String) : (after.foldl (awaited d)
      ((run g (.start session hooks) before).source d).inlet).ending ≠ .failed text := by
    have hempty (text : String) : (⟨[], .open⟩ : Inlet).ending ≠ .failed text := nofun
    rw [hending]
    exact foldl_awaited_not_failed hempty h.reads text
  have hunread := hyields.unread.symm.trans h.whole
  generalize after.foldl (awaited d) _ = inlet at hlater hopen hunread
  obtain ⟨arrived, ending⟩ := inlet
  by_cases hnil : arrived = []
  · subst hnil
    cases ending with
    | failed text => exact hopen text rfl
    | _ => cases hlater
  · obtain ⟨f, left, hframe⟩ := Inlet.exists_take_of_unread hnil hunread ending
    rw [hframe] at hlater
    cases hlater

theorem start_broken (session : Session) (hooks : σ) (d : Direction) :
    ((State.start session hooks).sink d).outlet.broken = none := by
  cases d <;> rfl

theorem run_carries (hg : g.Transparent) (session : Session) (hooks : σ) {before after : List Event}
    (h : Smooth d (before ++ after)) : Carries d (run g (.start session hooks) before) := by
  induction before using List.reverseRecOn generalizing after with
  | nil => exact .start session hooks d
  | append_singleton before e ih =>
    rw [List.append_assoc, List.singleton_append] at h
    have hs := ih h
    rw [run_snoc]
    by_cases he : e = .pump d
    · subst he
      rcases pump_moves g d (run g (.start session hooks) before) with hrests | hmoves
      · rwa [step, pump_rests g hrests]
      · refine hs.moves hg hmoves (hs.not_fails hg hmoves ?_ ?_ ?_ fun hd => ?_)
        · exact (run_tracks g session hooks before d).1.intact
        · exact run_broken (fun text he => h.writes text (List.mem_append_left _ he))
            (start_broken session hooks d)
        · exact h.take_ne_failed g session hooks
        · obtain ⟨hyields, -⟩ := run_yields g session hooks before (.pump d :: after) d
          exact (h.presentable hd).of_isPrefix hyields.isPrefix
    · exact hs.step (run_knows g session hooks before).1 he

/-! ## What is written -/

theorem Answered.exists_of_mem {before after : σ} {j : List Entry} (h : Answered g before j after)
    {e : Entry} (he : e ∈ j) : ∃ mid mid', e.AnsweredBy g mid mid' := by
  induction h with
  | nil => cases he
  | @snoc j a mid mid' _ ha ih =>
    rcases List.mem_append.mp he with he | he
    · exact ih he
    · rw [List.mem_singleton.mp he]
      exact ⟨mid, mid', ha⟩

theorem Gate.Transparent.not_denied (hg : g.Transparent) {before after : σ} {j : List Entry}
    (h : Answered g before j after) : ¬ Denied j := by
  rintro ⟨seen, filters, causes, hmem⟩
  obtain ⟨mid, mid', hcall⟩ := h.exists_of_mem hmem
  have hsame : Reply.refused causes = .done filters :=
    hg.unchanged (show Call.AnsweredBy g mid mid' (.authorizeSubscribe _ _ _) from hcall)
  cases hsame

/-- Nothing is denied, so the relay does not leave the broker by itself. -/
theorem run_written (hg : g.Transparent) (session : Session) (hooks : σ)
    (hwrites : ∀ text, .peer d.opposite (.failWriting text) ∉ events) :
    ((run g (.start session hooks) events).sink d).outlet.written =
      (forwarded d (run g (.start session hooks) events).journal).flatMap (·.2) := by
  have hends := run_ends g session hooks events
  have hwrote := run_wrote g session hooks events
  cases d with
  | toClient =>
    obtain ⟨last, hwritten, rfl | ⟨hd, -⟩⟩ := hends.written hwrote .toClient
    · rw [hwritten, List.append_nil]
    · cases hd
  | toBroker =>
    rcases hends.leaves_or_stays hwrote with ⟨hleft, -⟩ | ⟨-, hwritten⟩
    · have hout : (run g (.start session hooks) events).outcome ≠ none := by
        intro hnone
        cases hends.running hnone _ hleft
      have hleaves := (run_left g session hooks hwrites hout).mp hleft
      obtain ⟨-, hfirst⟩ := (leavesBroker_iff _).mp hleaves
      obtain ⟨before, after, -, hdenied, -⟩ :=
        (firstFault?_isDelivery_iff g session hooks events).mp hfirst
      exact absurd hdenied (hg.not_denied (run_answered g session hooks before))
    · exact hwritten

/-- What has been written and what is in hand are the octets of what has been taken. -/
theorem Carries.octets (hs : Carries d s) (haccounts : Accounts g d s)
    (hintact : ∀ f ∈ taken d s.journal, f.Intact) :
    (forwarded d s.journal).flatMap (·.2) ++ (s.phase d).held.flatMap (·.octets) =
      (taken d s.journal).flatMap (·.octets) := by
  have hwritten : (forwarded d s.journal).flatMap (·.2) =
      ((forwarded d s.journal).map (·.1)).flatMap (·.octets) := by
    rw [List.flatMap_map]
    refine List.flatMap_congr fun fo hfo => ?_
    have htaken : fo.1 ∈ taken d s.journal := by
      rw [hs.frames, gone, List.append_assoc]
      exact List.mem_append_left _ (List.mem_map_of_mem hfo)
    obtain ⟨octets, hreceived, -⟩ := hintact _ htaken
    obtain ⟨ps, -, -, -, -, hforwarded, -⟩ := haccounts
    rw [hforwarded] at hfo
    obtain ⟨p, -, rfl⟩ := List.mem_map.mp hfo
    have hwire := p.wire
    rw [Frame.wire_of_some hreceived] at hwire
    cases hwire
    rw [Frame.octets, hreceived, Option.getD_some]
  rw [hwritten, hs.frames, gone, Phase.held, List.append_assoc, ← List.flatMap_append]

/-- A pump that was not told to stop has taken everything when it ends. -/
theorem arrived_of_ended (g : Gate σ) (session : Session) (hooks : σ)
    (hreads : ∀ text, .peer d (.failReading text) ∉ events)
    (hended : (run g (.start session hooks) events).phase d = .ended none)
    (hfirst : ∀ report, (run g (.start session hooks) events).exits.head? ≠
      some (d.opposite, report)) :
    ((run g (.start session hooks) events).source d).inlet.arrived = [] := by
  have hstart : (State.start session hooks).phase d ≠ .ended none := by cases d <;> nofun
  obtain ⟨before, after, rfl, hp, hread⟩ := (run_ended_iff g events hstart).mp hended
  have hreports := run_reports g session hooks before
  have htake : ((run g (.start session hooks) before).source d).inlet.take = .closed := by
    refine hread.resolve_left fun hstop => ?_
    -- it was told to stop because the other had ended, whose report then came first
    have hrunning : ((run g (.start session hooks) before).phase d).isOver = false := by
      rw [hp]
      rfl
    have hne := (hreports.stopped hstop).resolve_right
      (by rw [State.not_over_of_running hrunning]; nofun)
    obtain ⟨⟨c, report⟩, more, hexits⟩ := List.exists_cons_of_ne_nil hne
    obtain ⟨later, hlater⟩ := run_exits g (run g (.start session hooks) before) (.pump d :: after)
    rw [← run_append, hexits] at hlater
    have hc : (run g (.start session hooks) before).phase c = .ended report := by
      rw [← hreports.exits, hexits]
      exact List.mem_cons_self
    rcases c.eq_or_opposite d with rfl | rfl
    · rw [hp] at hc
      cases hc
    · exact hfirst report (by rw [← hlater]; rfl)
  -- so all that arrives in the run had been taken by then
  have hinlet := Inlet.take_eq_closed htake
  obtain ⟨hearlier, -⟩ := run_yields g session hooks before (.pump d :: after) d
  obtain ⟨hyields, -⟩ := run_tracks g session hooks (before ++ .pump d :: after) d
  rw [hinlet, foldl_awaited_of_not_open (by nofun)
    fun text h => hreads text (List.mem_append_right _ h)] at hearlier
  obtain ⟨more, hmore⟩ := run_journal g (run g (.start session hooks) before) (.pump d :: after)
  have hsame := hearlier.octets.symm.trans hyields.octets
  rw [← run_append] at hmore
  rw [← hmore, taken_append, List.flatMap_append, List.append_assoc] at hsame
  exact (List.append_eq_nil_iff.mp (List.append_cancel_left hsame).symm).2

/-- Where nobody changes anything, a stream of frames that may pass goes from one peer to the other
octet by octet: at every moment it is what has been written, the frame in hand and what can still be
taken. A pump that is over has not failed and has written all that it took, and the whole stream if
the other pump was not over first. Once its peer has closed the connection it is over after so many
steps of its own. -/
theorem passes_unchanged (g : Gate σ) (hg : g.Transparent) (session : Session) (hooks : σ)
    (d : Direction) (hevents : Smooth d events) :
    let s := run g (.start session hooks) events
    let written := (s.sink d).outlet.written
    taken d s.journal <+: Inlet.frames (stream d events) ∧
    written ++ (s.phase d).held.flatMap (·.octets) ++ (s.source d).inlet.arrived =
      stream d events ∧
    ((s.phase d).isOver = true → s.phase d = .ended none ∧
      written = (taken d s.journal).flatMap (·.octets) ∧
      ((∀ report, s.exits.head? ≠ some (d.opposite, report)) → written = stream d events)) ∧
    ∀ before after, events = before ++ after → .peer d .halfClose ∈ before →
      weight d (run g (.start session hooks) before) ≤ after.count (.pump d) →
      (s.phase d).isOver = true := by
  intro s written
  have hs : Carries d s :=
    run_carries hg session hooks (by rwa [List.append_nil] : Smooth d (events ++ []))
  obtain ⟨hyields, -⟩ := run_tracks g session hooks events d
  have hwritten : written = (forwarded d s.journal).flatMap (·.2) :=
    run_written hg session hooks hevents.writes
  have hoctets := hs.octets (run_accounts g session hooks events d) hyields.intact
  rw [← hwritten] at hoctets
  have hall : written ++ (s.phase d).held.flatMap (·.octets) ++ (s.source d).inlet.arrived =
      stream d events := by
    rw [hoctets]
    exact hyields.octets.symm
  refine ⟨hyields.isPrefix, hall, fun hover => ?_, ?_⟩
  · have hended := Phase.ended_of_not_fails hover hs.unhurt
    rw [Phase.held_of_isOver hover, List.flatMap_nil, List.append_nil] at hoctets hall
    refine ⟨hended, hoctets, fun hfirst => ?_⟩
    rw [arrived_of_ended g session hooks hevents.reads hended hfirst, List.append_nil] at hall
    exact hall
  · rintro before after rfl hclose hsteps
    have hreads (text : String) : .peer d (.failReading text) ∉ before :=
      fun h => hevents.reads text (List.mem_append_left _ h)
    have hclosed : ((run g (.start session hooks) before).source d).inlet.ending = .closed := by
      rw [← (run_tracks g session hooks before d).2, foldl_offered_inlet]
      exact foldl_awaited_closed rfl hreads hclose
    show ((run g _ (before ++ after)).phase d).isOver = true
    rw [run_append]
    exact run_drains (by rw [hclosed]; nofun) hsteps

def agreeing : Gate Unit :=
  ⟨{ authorizeConnect := fun session state => (.done session, state)
     authorizePublish := fun _ content state => (.done content, state)
     authorizeSubscribe := fun _ filters state => (.done filters, state)
     connected := fun _ state => (.done (), state)
     published := fun _ _ state => (.done (), state)
     subscribed := fun _ _ state => (.done (), state)
     unsubscribed := fun _ _ state => (.done (), state)
     disconnected := fun _ state => (.done (), state) }, none⟩

theorem agreeing_transparent : agreeing.Transparent :=
  ⟨rfl, fun _ _ => rfl, fun _ _ _ => rfl, fun _ _ _ => rfl, fun _ _ => rfl, fun _ _ _ => rfl,
    fun _ _ _ => rfl, fun _ _ _ => rfl⟩

/-- A CONNECT with a name and a password that are empty, a length of one octet too many and two octets
behind its last field. -/
def ornate : Octets :=
  [0x10, 0x93, 0x00, 0x00, 0x04, 0x4D, 0x51, 0x54, 0x54, 0x04, 0xC2, 0x00, 0x3C, 0x00, 0x01, 0x63,
    0x00, 0x00, 0x00, 0x00, 0xFF, 0xFF]

def visiting : List Event :=
  [.peer .toBroker (.arrive (ornate ++ roundabout)), .peer .toBroker .halfClose] ++
    List.replicate 18 (.pump .toBroker)

theorem visiting_smooth : Smooth .toBroker visiting := by
  let hello : Frame := ⟨.connect ⟨4, "c", true, 60, some "", some [], none⟩, some ornate⟩
  let news : Frame := ⟨.publish ⟨"t", [], 0, false, false, none⟩, some roundabout⟩
  have hornate : IsFrame ornate :=
    ⟨0x10, [0x93, 0x00], ornate.drop 3, rfl, [0x93], 0x00, rfl, by decide, by simp, by decide, rfl⟩
  have hroundabout : IsFrame roundabout :=
    ⟨0x30, [0x83, 0x00], roundabout.drop 3, rfl, [0x83], 0x00, rfl, by decide, by simp, by decide,
      rfl⟩
  have hhello : Inlet.take ⟨ornate ++ roundabout, .closed⟩ = .frame hello roundabout :=
    Inlet.take_eq_frame_iff.mpr ⟨ornate, hornate, rfl, rfl, by decide +kernel⟩
  have hnews : Inlet.take ⟨roundabout, .closed⟩ = .frame news [] :=
    Inlet.take_eq_frame_iff.mpr ⟨roundabout, hroundabout, rfl, rfl, by decide +kernel⟩
  have hstream : stream .toBroker visiting = ornate ++ roundabout := by decide +kernel
  have hyields : Inlet.Yields (ornate ++ roundabout) [hello, news] [] := .snoc (.snoc .nil hhello) hnews
  refine ⟨?_, by simp [visiting], by simp [visiting], fun _ => ?_⟩
  · rw [hstream, hyields.unread, Inlet.unread_nil]
  · rw [hstream, hyields.frames, Inlet.frames_nil, List.append_nil]
    refine ⟨by decide, ?_⟩
    intro f hf p hp
    simp only [List.mem_cons, List.not_mem_nil, or_false] at hf
    rcases hf with rfl | rfl <;> cases hp

theorem visiting_unchanged :
    agreeing.Transparent ∧ Smooth .toBroker visiting ∧
    ((run agreeing (.start {} ()) visiting).sink .toBroker).outlet.written =
      ornate ++ roundabout := by
  obtain ⟨-, -, hends, -⟩ :=
    passes_unchanged agreeing agreeing_transparent {} () .toBroker visiting_smooth
  have hover : ((run agreeing (.start {} ()) visiting).phase .toBroker).isOver = true := by
    decide +kernel
  have hexits : (run agreeing (.start {} ()) visiting).exits = [(.toBroker, none)] := by
    decide +kernel
  have hstream : stream .toBroker visiting = ornate ++ roundabout := by decide +kernel
  obtain ⟨-, -, hwritten⟩ := hends hover
  refine ⟨agreeing_transparent, visiting_smooth, (hwritten fun report => ?_).trans hstream⟩
  rw [hexits]
  nofun

end MqttGateway.Relay
