import MqttGateway.Proofs.Relay.Draining
import MqttGateway.Proofs.Relay.Forwarding
/-!
# What is still to arrive

A relay to which more has arrived already does the same as one to which it arrives later: a pump that
does not wait reads what it would have read, and nobody else looks at what has arrived. So octets
that are still to come can be put in front of any steps that are taken before they come.
-/
namespace MqttGateway

namespace Inlet

def Taken.extend (more : Octets) : Taken → Taken
  | .frame f rest => .frame f (rest ++ more)
  | .failed halt rest => .failed halt (rest ++ more)
  | .waiting => .waiting
  | .closed => .closed

/-- What does not make a reader wait is taken as it is if more has come, as long as more could. -/
theorem take_extend {bs : Octets} (more : Octets) (later : Ending)
    (h : take ⟨bs, .open⟩ ≠ .waiting) : take ⟨bs ++ more, later⟩ = (take ⟨bs, .open⟩).extend more := by
  cases htake : take ⟨bs, .open⟩ with
  | frame f rest => exact take_append more later htake
  | failed halt rest => exact take_failed_append more later htake
  | waiting => exact absurd htake h
  | closed => cases take_eq_closed htake

end Inlet

namespace Relay

variable {σ : Type} {g : Gate σ} {s t : State σ} {c d : Direction}

/-! ## The inlet of a peer -/

/-- Nobody but the peer of a direction does anything on the connections, and it only sends and
closes. -/
def Event.Feeds (d : Direction) (e : Event) : Prop :=
  ∀ c h, e = .peer c h → c = d ∧ (h = .halfClose ∨ ∃ octets, h = .arrive octets)

def Event.Inner (e : Event) : Prop :=
  ∀ c h, e ≠ .peer c h

theorem Event.Inner.feeds {e : Event} (he : e.Inner) (d : Direction) : e.Feeds d :=
  fun c h heq => absurd heq (he c h)

def awaited (d : Direction) (inlet : Inlet) (e : Event) : Inlet :=
  (offered d { inlet } e).inlet

theorem offered_inlet (d : Direction) (link : Link) (e : Event) :
    (offered d link e).inlet = awaited d link.inlet e := by
  obtain ⟨⟨arrived, ending⟩, outlet⟩ := link
  cases e with
  | peer c h =>
    simp only [awaited, offered]
    split
    · cases h <;> cases ending <;> rfl
    · rfl
  | _ => rfl

theorem foldl_offered_inlet (d : Direction) (link : Link) (events : List Event) :
    (events.foldl (offered d) link).inlet = events.foldl (awaited d) link.inlet := by
  induction events generalizing link with
  | nil => rfl
  | cons e events ih => rw [List.foldl_cons, List.foldl_cons, ih, offered_inlet]

/-- What has arrived already stands in front of what is still to arrive. -/
theorem foldl_awaited (d : Direction) (arrived : Octets) (ending : Ending) (events : List Event) :
    events.foldl (awaited d) ⟨arrived, ending⟩ =
      ⟨arrived ++ (events.foldl (awaited d) ⟨[], ending⟩).arrived,
        (events.foldl (awaited d) ⟨[], ending⟩).ending⟩ := by
  induction events generalizing arrived ending with
  | nil => simp
  | cons e events ih =>
    have hsame : awaited d ⟨arrived, ending⟩ e = ⟨arrived ++ (awaited d ⟨[], ending⟩ e).arrived,
        (awaited d ⟨[], ending⟩ e).ending⟩ := by
      cases e with
      | peer c h =>
        simp only [awaited, offered]
        split
        · cases h <;> cases ending <;> simp [Link.after, Link.arrive, Link.halfClose,
            Link.failReading, Link.failWriting]
        · simp
      | _ => simp [awaited, offered]
    rw [List.foldl_cons, List.foldl_cons, hsame, ih]
    generalize awaited d ⟨[], ending⟩ e = inlet
    obtain ⟨more, later⟩ := inlet
    rw [ih more later, List.append_assoc]

theorem not_failReading_of_feeds {events : List Event} (hfeeds : ∀ e ∈ events, e.Feeds d)
    (text : String) : .peer d (.failReading text) ∉ events := by
  intro h
  obtain ⟨-, hh | ⟨octets, hh⟩⟩ := hfeeds _ h _ _ rfl <;> cases hh

/-- Nothing is added once nothing more can arrive. -/
theorem foldl_awaited_of_not_open {inlet : Inlet} (hclosed : inlet.ending ≠ .open) {events : List Event}
    (hreads : ∀ text, .peer d (.failReading text) ∉ events) :
    events.foldl (awaited d) inlet = inlet := by
  induction events with
  | nil => rfl
  | cons e events ih =>
    have hsame : awaited d inlet e = inlet := by
      cases e with
      | peer c h =>
        simp only [awaited, offered]
        split
        case isTrue hcd =>
          subst hcd
          cases h with
          | arrive octets => rw [Link.after, Link.arrive_of_not_open hclosed]
          | halfClose => rw [Link.after, Link.halfClose_of_not_open hclosed]
          | failReading text => exact absurd List.mem_cons_self (hreads text)
          | failWriting text => rfl
        case isFalse => rfl
      | _ => rfl
    rw [List.foldl_cons, hsame]
    exact ih fun text h => hreads text (List.mem_cons_of_mem _ h)

theorem awaited_inner (inlet : Inlet) {e : Event} (he : e.Inner) : awaited d inlet e = inlet := by
  cases e with
  | peer c h => exact absurd rfl (he c h)
  | _ => rfl

theorem foldl_awaited_inner (inlet : Inlet) {events : List Event}
    (hinner : ∀ e ∈ events, Event.Inner e) : events.foldl (awaited d) inlet = inlet := by
  induction events with
  | nil => rfl
  | cons e events ih =>
    obtain ⟨he, hinner⟩ := List.forall_mem_cons.mp hinner
    rw [List.foldl_cons, awaited_inner inlet he, ih hinner]

/-- Only the closing of a connection changes how an inlet ends, as long as reading does not fail. -/
theorem awaited_ending (inlet : Inlet) {e : Event} (hreads : ∀ text, e ≠ .peer d (.failReading text)) :
    e ≠ .peer d .halfClose ∧ (awaited d inlet e).ending = inlet.ending ∨
    e = .peer d .halfClose ∧
      (awaited d inlet e).ending = if inlet.ending = .open then .closed else inlet.ending := by
  obtain ⟨arrived, ending⟩ := inlet
  cases e with
  | peer c h =>
    by_cases hcd : c = d
    · subst hcd
      cases h with
      | arrive octets =>
        refine .inl ⟨by rintro ⟨⟩, ?_⟩
        cases ending <;> simp [awaited, offered, Link.after, Link.arrive]
      | halfClose =>
        refine .inr ⟨rfl, ?_⟩
        cases ending <;> simp [awaited, offered, Link.after, Link.halfClose]
      | failReading text => exact absurd rfl (hreads text)
      | failWriting text =>
        exact .inl ⟨by rintro ⟨⟩, by simp [awaited, offered, Link.after, Link.failWriting]⟩
    · exact .inl ⟨fun h => hcd (by cases h; rfl), by simp [awaited, offered, hcd]⟩
  | _ => exact .inl ⟨by rintro ⟨⟩, rfl⟩

theorem foldl_awaited_closed {inlet : Inlet} (hopen : inlet.ending = .open) {events : List Event}
    (hreads : ∀ text, .peer d (.failReading text) ∉ events) (hclose : .peer d .halfClose ∈ events) :
    (events.foldl (awaited d) inlet).ending = .closed := by
  induction events generalizing inlet with
  | nil => cases hclose
  | cons e events ih =>
    have hrest (text : String) : .peer d (.failReading text) ∉ events :=
      fun h => hreads text (List.mem_cons_of_mem _ h)
    rw [List.foldl_cons]
    have hne (text : String) : e ≠ .peer d (.failReading text) :=
      fun he => hreads text (he ▸ List.mem_cons_self)
    rcases awaited_ending inlet hne with ⟨he, hsame⟩ | ⟨-, hclosed⟩
    · exact ih (hsame.trans hopen) hrest ((List.mem_cons.mp hclose).resolve_left (Ne.symm he))
    · rw [if_pos hopen] at hclosed
      rw [foldl_awaited_of_not_open (by rw [hclosed]; nofun) hrest, hclosed]

theorem foldl_awaited_not_failed {inlet : Inlet} (hinlet : ∀ text, inlet.ending ≠ .failed text)
    {events : List Event} (hreads : ∀ text, .peer d (.failReading text) ∉ events) (text : String) :
    (events.foldl (awaited d) inlet).ending ≠ .failed text := by
  induction events generalizing inlet with
  | nil => exact hinlet text
  | cons e events ih =>
    refine ih (fun text => ?_) fun text h => hreads text (List.mem_cons_of_mem _ h)
    have hne (text : String) : e ≠ .peer d (.failReading text) :=
      fun he => hreads text (he ▸ List.mem_cons_self)
    rcases awaited_ending inlet hne with ⟨-, hsame⟩ | ⟨-, hsame⟩
    · rw [hsame]
      exact hinlet text
    · rw [hsame]
      split
      · nofun
      · exact hinlet text

/-- Whoever need not wait takes what would be taken if more had come. -/
theorem take_foldl_awaited {inlet : Inlet} (h : inlet.take ≠ .waiting) {events : List Event}
    (hreads : ∀ text, .peer d (.failReading text) ∉ events) : (events.foldl (awaited d) inlet).take =
      inlet.take.extend (events.foldl (awaited d) ⟨[], inlet.ending⟩).arrived := by
  by_cases hopen : inlet.ending = .open
  · obtain ⟨arrived, ending⟩ := inlet
    cases hopen
    rw [foldl_awaited]
    exact Inlet.take_extend _ _ h
  · have hempty : (⟨[], inlet.ending⟩ : Inlet).ending ≠ .open := hopen
    rw [foldl_awaited_of_not_open hopen hreads, foldl_awaited_of_not_open hempty hreads]
    cases inlet.take <;> simp [Inlet.Taken.extend]

/-! ## Steps that do not look at an inlet -/

def State.setInlet (s : State σ) (d : Direction) (inlet : Inlet) : State σ :=
  s.setSource d { s.source d with inlet }

section
variable (s : State σ) (d : Direction) (inlet : Inlet)

@[simp] theorem setInlet_session : (s.setInlet d inlet).session = s.session := by cases d <;> rfl
@[simp] theorem setInlet_connected : (s.setInlet d inlet).connected = s.connected := by
  cases d <;> rfl
@[simp] theorem setInlet_stopped : (s.setInlet d inlet).stopped = s.stopped := by cases d <;> rfl
@[simp] theorem setInlet_outcome : (s.setInlet d inlet).outcome = s.outcome := by cases d <;> rfl
@[simp] theorem setInlet_hooks : (s.setInlet d inlet).hooks = s.hooks := by cases d <;> rfl
@[simp] theorem setInlet_exits : (s.setInlet d inlet).exits = s.exits := by cases d <;> rfl
@[simp] theorem setInlet_phase (c : Direction) : (s.setInlet d inlet).phase c = s.phase c := by
  cases d <;> cases c <;> rfl
@[simp] theorem setInlet_isOver : (s.setInlet d inlet).isOver = s.isOver := by cases d <;> rfl
@[simp] theorem setInlet_outlet (c : Direction) :
    ((s.setInlet d inlet).source c).outlet = (s.source c).outlet := by
  cases d <;> cases c <;> rfl
@[simp] theorem setInlet_source : ((s.setInlet d inlet).source d).inlet = inlet := by
  cases d <;> rfl
theorem setInlet_source_of_ne {c : Direction} (h : c ≠ d) :
    (s.setInlet d inlet).source c = s.source c :=
  State.setSource_source_of_ne _ _ _ h

theorem setInlet_self : s.setInlet d (s.source d).inlet = s := by cases d <;> rfl

theorem enter_setInlet (c : Direction) (p : Phase) :
    (s.setInlet d inlet).enter c p = (s.enter c p).setInlet d inlet := by
  cases d <;> cases c <;> rfl

theorem ask_setInlet {α : Type} (c : Direction) (call : Reply α → Call) (hook : Hook σ α)
    (next : Reply α → Phase) :
    (s.setInlet d inlet).ask c call hook next = (s.ask c call hook next).setInlet d inlet := by
  simp only [State.ask, setInlet_hooks]
  rw [← enter_setInlet]
  cases d <;> rfl

theorem look_setInlet (c : Direction) (next : Session → Phase) :
    look (s.setInlet d inlet) c next = (look s c next).setInlet d inlet := by
  cases d <;> cases c <;> rfl

theorem store_setInlet (c : Direction) (session : Session) (f : Frame) :
    store (s.setInlet d inlet) c session f = (store s c session f).setInlet d inlet := by
  cases d <;> cases c <;> rfl

theorem authorize_setInlet (g : Gate σ) (c : Direction) (seen : Session) (f : Frame) :
    authorize g (s.setInlet d inlet) c seen f = (authorize g s c seen f).setInlet d inlet := by
  unfold authorize
  split
  case h_1 =>
    unfold authorizeConnect
    rw [setInlet_connected]
    split
    · exact enter_setInlet ..
    · exact ask_setInlet ..
  case h_2 => exact ask_setInlet ..
  case h_3 => exact ask_setInlet ..
  case h_4 => exact ask_setInlet ..
  case h_5 => exact enter_setInlet ..

theorem intercept_setInlet (g : Gate σ) (c : Direction) (seen : Session) (f : Frame) :
    intercept g (s.setInlet d inlet) c seen f = (intercept g s c seen f).setInlet d inlet := by
  unfold intercept
  split
  · exact enter_setInlet ..
  · exact ask_setInlet ..

theorem write_setInlet (c : Direction) (f : Frame) :
    write (s.setInlet d inlet) c f = (write s c f).setInlet d inlet := by
  have hsink : ((s.setInlet d inlet).sink c).outlet = (s.sink c).outlet := by
    simp [State.sink]
  unfold write
  dsimp only
  rw [hsink]
  split
  · exact enter_setInlet ..
  · cases d <;> cases c <;> rfl

theorem notify_setInlet (g : Gate σ) (c : Direction) (seen : Session) (f : Frame) :
    notify g (s.setInlet d inlet) c seen f = (notify g s c seen f).setInlet d inlet := by
  unfold notify
  split
  · exact enter_setInlet ..
  · exact ask_setInlet ..

theorem supervise_setInlet :
    supervise (s.setInlet d inlet) = (supervise s).setInlet d inlet := by
  simp only [supervise, setInlet_exits, setInlet_isOver]
  split
  · rfl
  · cases d <;> rfl

theorem leaveBroker_setInlet : leaveBroker (s.setInlet d inlet) =
    ((leaveBroker s).1.setInlet d inlet, (leaveBroker s).2) := by
  have hleaves : leavesBroker (s.setInlet d inlet) = leavesBroker s := by cases d <;> rfl
  have houtlet : (s.setInlet d inlet).broker.outlet = s.broker.outlet := by cases d <;> rfl
  unfold leaveBroker
  rw [hleaves, houtlet]
  split
  · split
    · cases d <;> rfl
    · rfl
  · rfl

theorem conclude_setInlet (g : Gate σ) :
    (conclude g (s.setInlet d inlet)).1 = (conclude g s).1.setInlet d inlet := by
  have hcrashes (t : State σ) : crashes (t.setInlet d inlet) = crashes t := by simp [crashes]
  have hfirst : firstFault? (s.setInlet d inlet) = firstFault? s := by simp [firstFault?]
  simp only [conclude, leaveBroker_setInlet, hcrashes, hfirst, setInlet_session, setInlet_hooks]
  cases d <;> rfl

/-- The pump of the other direction does not look at the inlet, and a pump that does not read looks at
none. -/
theorem pump_setInlet (g : Gate σ) (c : Direction) (h : s.phase c ≠ .reading ∨ c ≠ d) :
    pump g c (s.setInlet d inlet) = (pump g c s).setInlet d inlet := by
  unfold pump
  rw [setInlet_phase]
  split
  case h_1 hp =>
    have hcd : c ≠ d := h.resolve_left fun hne => hne hp
    unfold read
    rw [setInlet_stopped, setInlet_source_of_ne _ _ _ hcd]
    split
    · exact enter_setInlet ..
    · dsimp only
      split
      · rfl
      · exact enter_setInlet ..
      · exact enter_setInlet ..
      · exact enter_setInlet ..
      · cases d <;> cases c <;> first | rfl | exact absurd rfl hcd
  case h_2 => exact look_setInlet ..
  case h_3 => exact authorize_setInlet ..
  case h_4 => exact store_setInlet ..
  case h_5 => exact look_setInlet ..
  case h_6 => exact intercept_setInlet ..
  case h_7 => exact write_setInlet ..
  case h_8 => exact look_setInlet ..
  case h_9 => exact notify_setInlet ..
  case h_10 => rfl
  case h_11 => rfl

end

/-! ## Steps before what is still to arrive -/

/-- The relay as it would be if all that arrives in `events` had arrived. -/
def foreseen (d : Direction) (events : List Event) (s : State σ) : State σ :=
  s.setInlet d (events.foldl (awaited d) (s.source d).inlet)

variable {events : List Event}

theorem foreseen_nil (d : Direction) (s : State σ) : foreseen d [] s = s :=
  setInlet_self s d

/-- What the peer does is foreseen before it does it. -/
theorem foreseen_peer {h : Happening} (hfeeds : Event.Feeds d (.peer c h)) :
    foreseen d (.peer c h :: events) s = foreseen d events (step g s (.peer c h)) := by
  obtain ⟨rfl, hh⟩ := hfeeds c h rfl
  have hinlet : awaited c (s.source c).inlet (.peer c h) = ((s.source c).after h).inlet := by
    rw [← offered_inlet, offered, if_pos rfl]
  have houtlet : ((s.source c).after h).outlet = (s.source c).outlet := by
    rcases hh with rfl | ⟨octets, rfl⟩ <;>
      cases hending : (s.source c).inlet.ending <;>
      simp [Link.after, Link.halfClose, Link.arrive, hending]
  simp only [foreseen, List.foldl_cons, hinlet, step, State.setSource_source, State.setInlet,
    houtlet]
  cases c <;> rfl

/-- What is not done by a peer leaves it to come. -/
theorem foreseen_cons {e : Event} (he : e.Inner) :
    foreseen d (e :: events) s = foreseen d events s := by
  rw [foreseen, List.foldl_cons, awaited_inner _ he, foreseen]

/-- Of a stream that is closed in the end, only the octets are foreseen. -/
theorem foreseen_closed (hopen : (s.source d).inlet.ending = .open)
    (hfeeds : ∀ e ∈ events, e.Feeds d) (hclose : .peer d .halfClose ∈ events) :
    foreseen d events s =
      s.setInlet d ⟨(s.source d).inlet.arrived ++ stream d events, .closed⟩ := by
  have hinlet : (s.source d).inlet = ⟨(s.source d).inlet.arrived, .open⟩ := by rw [← hopen]
  rw [foreseen, hinlet, foldl_awaited, foldl_awaited_closed rfl (not_failReading_of_feeds hfeeds) hclose, stream,
    foldl_offered_inlet]

/-- A step that neither looks at the inlet nor takes anything from it can be taken before. -/
theorem foreseen_of_setInlet (step : State σ → State σ)
    (hstep : ∀ inlet, step (s.setInlet d inlet) = (step s).setInlet d inlet)
    (hinlet : ((step s).source d).inlet = (s.source d).inlet) :
    step (foreseen d events s) = foreseen d events (step s) := by
  rw [foreseen, foreseen, hstep, hinlet]

theorem enter_foreseen (p : Phase) :
    (foreseen d events s).enter c p = foreseen d events (s.enter c p) :=
  foreseen_of_setInlet (fun s => s.enter c p) (fun _ => enter_setInlet ..) (by simp)

theorem read_foreseen (hfeeds : ∀ e ∈ events, e.Feeds d)
    (h : s.stopped = true ∨ (s.source d).inlet.take ≠ .waiting) :
    read (foreseen d events s) d = foreseen d events (read s d) := by
  have hinlet : ((foreseen d events s).source d).inlet =
      events.foldl (awaited d) (s.source d).inlet := setInlet_source ..
  have hstopped : (foreseen d events s).stopped = s.stopped := setInlet_stopped ..
  unfold read
  rw [hstopped]
  split
  case isTrue => exact enter_foreseen _
  case isFalse hrun =>
    have htake := take_foldl_awaited (h.resolve_left hrun) (not_failReading_of_feeds hfeeds)
    dsimp only
    rw [hinlet, htake]
    cases hcase : (s.source d).inlet.take with
    | waiting => exact absurd hcase (h.resolve_left hrun)
    | closed => exact enter_foreseen _
    | failed halt rest =>
      cases halt with
      | error error => exact enter_foreseen _
      | overrun => exact enter_foreseen _
    | frame f rest =>
      have hafter := foldl_awaited d rest (s.source d).inlet.ending events
      have hbefore := foldl_awaited d (s.source d).inlet.arrived (s.source d).inlet.ending events
      simp only [Inlet.Taken.extend, ← enter_foreseen]
      congr 1
      simp only [foreseen, State.setInlet, State.note_source, State.setSource_source, hafter, hbefore]
      cases d <;> rfl

theorem pump_foreseen (hfeeds : ∀ e ∈ events, e.Feeds d) :
    Rests c s ∨ pump g c (foreseen d events s) = foreseen d events (pump g c s) := by
  by_cases hreads : s.phase c = .reading ∧ c = d
  · obtain ⟨hp, rfl⟩ := hreads
    by_cases hwaits : s.stopped = false ∧ (s.source c).inlet.take = .waiting
    · exact .inl (.inr ⟨hp, hwaits⟩)
    · have hends : s.stopped = true ∨ (s.source c).inlet.take ≠ .waiting := by
        cases hstop : s.stopped with
        | true => exact .inl rfl
        | false => exact .inr fun htake => hwaits ⟨hstop, htake⟩
      have hphase : (foreseen c events s).phase c = .reading := (setInlet_phase ..).trans hp
      refine .inr ?_
      rw [pump, hphase, pump, hp]
      exact read_foreseen hfeeds hends
  · rcases pump_moves g c s with hrests | ⟨e, q, r, hturn, hperf, heq⟩
    · exact .inl hrests
    · refine .inr (foreseen_of_setInlet (pump g c) (fun inlet => pump_setInlet s d inlet g c ?_) ?_)
      · by_cases hp : s.phase c = .reading
        · exact .inr fun hcd => hreads ⟨hp, hcd⟩
        · exact .inl hp
      · rw [heq, State.enter_source]
        refine hperf.inlet ?_
        rintro f rfl
        cases hperf with
        | take =>
          generalize hp : s.phase c = p at hturn
          cases hturn with
          | take => exact hreads ⟨hp, rfl⟩

/-- A step that does anything does the same if all that is still to arrive has arrived. -/
theorem step_foreseen (hfeeds : ∀ e ∈ events, e.Feeds d) {e : Event} (he : e.Inner) :
    step g s e = s ∨ step g (foreseen d events s) e = foreseen d events (step g s e) := by
  cases e with
  | peer c h => exact absurd rfl (he c h)
  | pump c =>
    rcases pump_foreseen (g := g) (c := c) (s := s) hfeeds with hrests | hsame
    · exact .inl (pump_rests g hrests)
    · exact .inr hsame
  | supervise =>
    exact .inr (foreseen_of_setInlet supervise (fun _ => supervise_setInlet ..) (by rw [supervise_source]))
  | conclude =>
    have hready : ((foreseen d events s).stopped && (foreseen d events s).isOver &&
        (foreseen d events s).outcome.isNone) = (s.stopped && s.isOver && s.outcome.isNone) := by
      simp [foreseen]
    simp only [step, hready]
    split
    case isTrue =>
      exact .inr (foreseen_of_setInlet (fun s => (conclude g s).1)
        (fun _ => conclude_setInlet ..) ((conclude_concludes g s).inlet d))
    case isFalse => exact .inl rfl

end Relay
end MqttGateway
