import MqttGateway.Proofs.Relay.Notices
import MqttGateway.Proofs.Relay.Sending
import MqttGateway.Proofs.Relay.Stopping
/-!
# What is finished after a stop

Main statement: once a relay has told its pumps to stop, a pump deals with the one packet that it
had in hand, if it had any, and takes no other, however many frames are waiting or still arrive. It
then ends without an error, unless that packet has stopped it.
-/
namespace MqttGateway.Relay

variable {σ : Type} {g : Gate σ} {s t u : State σ} {c d : Direction} {f : Frame}

/-! ## What is done about a packet -/

inductive Act
  | authorize
  | intercept
  | write
  | notify
  deriving DecidableEq, Repr

def Call.act : Call → Act
  | .authorizeConnect .. => .authorize
  | .authorizePublish .. => .authorize
  | .authorizeSubscribe .. => .authorize
  | .intercept .. => .intercept
  | _ => .notify

def Entry.act? (d : Direction) : Entry → Option Act
  | .called c call => if c = d then some call.act else none
  | .wrote c _ _ => if c = d then some .write else none
  | _ => none

def acts (d : Direction) (j : List Entry) : List Act :=
  j.filterMap (Entry.act? d)

def Phase.ahead : Phase → List Act
  | .authorizing _ _ => [.authorize, .intercept, .write, .notify]
  | .storing _ _ => [.intercept, .write, .notify]
  | .intercepting _ _ => [.intercept, .write, .notify]
  | .writing _ => [.write, .notify]
  | .notifying _ _ => [.notify]
  | _ => []

theorem acts_append (d : Direction) (j k : List Entry) : acts d (j ++ k) = acts d j ++ acts d k :=
  List.filterMap_append

theorem Phase.ahead_sublist (p : Phase) :
    p.ahead.Sublist [.authorize, .intercept, .write, .notify] := by
  cases p <;> simp [ahead]

theorem Phase.ahead_eq_nil_iff (p : Phase) : p.ahead = [] ↔ p.frame? = none := by
  cases p <;> simp [ahead, frame?]

/-- With nothing in hand there is nothing to do, and nothing in hand afterwards. -/
theorem nothing_of_sublist {p q : Phase} {k : List Act} (h : (k ++ q.ahead).Sublist p.ahead)
    (hp : p.frame? = none) : k = [] ∧ q.frame? = none := by
  rw [p.ahead_eq_nil_iff.mpr hp, List.sublist_nil, List.append_eq_nil_iff] at h
  exact ⟨h.1, q.ahead_eq_nil_iff.mp h.2⟩

theorem acts_eq_nil_iff {k : List Entry} : acts d k = [] ↔ ∀ a ∈ k, a.act? d = none :=
  List.filterMap_eq_nil_iff

/-- Who tells nothing of a pump tells nothing of what it does. -/
theorem Elsewhere.acts {k : List Entry} (h : Elsewhere d k) : acts d k = [] := by
  refine acts_eq_nil_iff.mpr fun a ha => ?_
  have hcalls := List.filterMap_eq_nil_iff.mp h.calls a ha
  have hforwarded := List.filterMap_eq_nil_iff.mp h.forwarded a ha
  cases a with
  | called c call =>
    by_cases hcd : c = d
    · simp [hcd] at hcalls
    · simp [Entry.act?, hcd]
  | wrote c f octets =>
    by_cases hcd : c = d
    · simp [hcd] at hforwarded
    · simp [Entry.act?, hcd]
  | _ => rfl

theorem Authorizes.act {seen : Session} {call : Call} {q : Phase}
    (h : Authorizes seen f d call q) : call.act = .authorize := by
  cases h <;> rfl

theorem Notifies.act {seen : Session} {packet : Packet} {call : Call} {reply : Reply Unit}
    (h : Notifies seen packet call reply) : call.act = .notify := by
  cases h <;> rfl

/-- A turn does at most the next thing that can be done about the packet in hand. -/
theorem Turn.acts {connected : Bool} {p q : Phase} {e : Option Entry}
    (h : Turn g connected d p e q) (he : ∀ f, e ≠ some (.took d f)) :
    (acts d e.toList ++ q.ahead).Sublist p.ahead := by
  cases h with
  | take f => exact absurd rfl (he f)
  | authorize hauth _ =>
    rcases hauth.leads with ⟨fault, rfl⟩ | rfl | ⟨session, f', rfl⟩ | ⟨f', rfl⟩ <;>
      simp [Relay.acts, Entry.act?, hauth.act, Phase.ahead]
  | intercept reply _ =>
    cases reply <;> simp [Relay.acts, Entry.act?, Call.act, Phase.ofReply, Phase.ahead]
  | write => cases d <;> simp [Relay.acts, Entry.act?, Phase.afterWriting, Phase.ahead]
  | @notify _ _ _ reply hnotifies =>
    cases reply <;> simp [Relay.acts, Entry.act?, hnotifies.act, Phase.ofReply, Phase.ahead]
  | _ => simp [Relay.acts, Entry.act?, Phase.ahead]

/-! ## Which packet it is -/

inductive About (g : Gate σ) (d : Direction) (f : Frame) : Entry → Prop
  | asked {seen : Session} {call : Call} {q : Phase} : Authorizes seen f d call q →
      About g d f (.called d call)
  | shown {calls : List Call} {f' : Frame} (seen : Session) (reply : Reply Frame) :
      Clears f d calls f' → About g d f (.called d (.intercept seen f' d reply))
  | wrote {as is : List Call} {f' f'' : Frame} {octets : Octets} : Clears f d as f' →
      Inspects g d f' is f'' → f''.wire = .ok octets → About g d f (.wrote d f'' octets)
  | told {as is : List Call} {f' f'' : Frame} {seen : Session} {call : Call}
      {reply : Reply Unit} : Clears f d as f' → Inspects g d f' is f'' →
      Notifies seen f''.packet call reply → About g d f (.called d call)

def Phase.StandsFor (g : Gate σ) (d : Direction) (f : Frame) : Phase → Prop
  | .authorizing _ f' => f' = f
  | .storing _ f' => ∃ calls, Clears f d calls f'
  | .intercepting _ f' => ∃ calls, Clears f d calls f'
  | .writing f'' => ∃ as f' is, Clears f d as f' ∧ Inspects g d f' is f''
  | .notifying _ f'' => ∃ as f' is, Clears f d as f' ∧ Inspects g d f' is f''
  | _ => True

theorem Authorizes.standsFor {seen : Session} {call : Call} {q : Phase}
    (h : Authorizes seen f d call q) : q.StandsFor g d f := by
  have hin := h.inHand (g := g)
  rcases h.leads with ⟨fault, rfl⟩ | rfl | ⟨session, f', rfl⟩ | ⟨f', rfl⟩
  · trivial
  · trivial
  · obtain ⟨f₀, hf, hclears⟩ := hin
    cases hf
    exact ⟨_, hclears⟩
  · obtain ⟨f₀, hf, hclears⟩ := hin
    cases hf
    exact ⟨_, hclears⟩

/-- What a turn does is done about the frame that was taken, and it leaves the pump with what goes
on in its place. -/
theorem Turn.standsFor {connected : Bool} {p q : Phase} {e : Option Entry}
    (h : Turn g connected d p e q) (he : ∀ f, e ≠ some (.took d f)) (hp : p.StandsFor g d f) :
    q.StandsFor g d f ∧ ∀ a ∈ e, a.act? d ≠ none → About g d f a := by
  cases h with
  | take f => exact absurd rfl (he f)
  | authorize hauth _ =>
    cases hp
    refine ⟨hauth.standsFor, ?_⟩
    rintro _ ⟨⟩ -
    exact .asked hauth
  | pass hneeds =>
    cases hp
    exact ⟨⟨[], .pass hneeds⟩, by simp⟩
  | @intercept seen f' reply hi =>
    obtain ⟨calls, hclears⟩ := hp
    refine ⟨?_, ?_⟩
    · cases reply with
      | done f'' => exact ⟨calls, f', _, hclears, .intercepted seen f'' hi⟩
      | refused causes => trivial
      | crashed => trivial
    · rintro _ ⟨⟩ -
      exact .shown seen reply hclears
  | unseen hi =>
    obtain ⟨calls, hclears⟩ := hp
    exact ⟨⟨calls, _, [], hclears, .unseen hi⟩, by simp⟩
  | write hwire =>
    obtain ⟨as, f', is, hclears, hinspects⟩ := hp
    refine ⟨?_, ?_⟩
    · cases d with
      | toBroker => exact ⟨as, f', is, hclears, hinspects⟩
      | toClient => trivial
    · rintro _ ⟨⟩ -
      exact .wrote hclears hinspects hwire
  | @notify _ _ _ reply hnotifies =>
    obtain ⟨as, f', is, hclears, hinspects⟩ := hp
    refine ⟨?_, ?_⟩
    · cases reply <;> trivial
    · rintro _ ⟨⟩ -
      exact .told hclears hinspects hnotifies
  | lookToAuthorize => exact ⟨hp, by simp [Entry.act?]⟩
  | store => exact ⟨hp, by simp [Entry.act?]⟩
  | lookToIntercept => exact ⟨hp, by simp [Entry.act?]⟩
  | lookToNotify => exact ⟨hp, by simp [Entry.act?]⟩
  | _ => exact ⟨trivial, by simp⟩

theorem taken_eq_nil {e : Option Entry} (he : ∀ f, e ≠ some (.took d f)) :
    taken d e.toList = [] := by
  cases e with
  | none => rfl
  | some a =>
    cases a with
    | took c f =>
      have hcd : c ≠ d := fun h => he f (h ▸ rfl)
      simp [taken, hcd]
    | _ => rfl

/-- A pump that has a packet in hand after a turn had it before, unless it took it. -/
theorem Turn.hand {connected : Bool} {p q : Phase} {e : Option Entry}
    (h : Turn g connected d p e q) (he : ∀ f, e ≠ some (.took d f)) (hq : q.frame? ≠ none) :
    p.frame? ≠ none :=
  fun hp => hq (nothing_of_sublist (h.acts he) hp).2

/-- What a pump has in hand stands for the frame that it has taken last. -/
theorem run_standsFor (g : Gate σ) (session : Session) (hooks : σ) (events : List Event)
    (d : Direction) (hhand : ((run g (.start session hooks) events).phase d).frame? ≠ none) :
    ∃ f, (taken d (run g (.start session hooks) events).journal).getLast? = some f ∧
      ((run g (.start session hooks) events).phase d).StandsFor g d f := by
  induction events using List.reverseRecOn with
  | nil => cases d <;> exact absurd rfl hhand
  | append_singleton events e ih =>
    rw [run_snoc] at hhand ⊢
    generalize run g (.start session hooks) events = s at *
    by_cases he : e = .pump d
    · subst he
      rcases pump_moves g d s with h | ⟨e, q, r, hturn, hperf, h⟩
      · rw [step, pump_rests g h] at hhand ⊢
        exact ih hhand
      · rw [step, h, State.enter_phase] at hhand
        rw [step, h, State.enter_phase, hperf.enter_journal, taken_append]
        by_cases htook : ∃ f, e = some (.took d f)
        · obtain ⟨f, rfl⟩ := htook
          obtain rfl : q = .authorizing none f := by
            generalize s.phase d = p at hturn
            cases hturn
            rfl
          exact ⟨f, by simp [taken], rfl⟩
        · have hne (f : Frame) : e ≠ some (.took d f) := fun he => htook ⟨f, he⟩
          obtain ⟨f, hlast, hstands⟩ := ih (hturn.hand hne hhand)
          rw [taken_eq_nil hne, List.append_nil]
          exact ⟨f, hlast, (hturn.standsFor hne hstands).1⟩
    · rw [step_phase he] at hhand ⊢
      obtain ⟨k, hk, helse⟩ := step_elsewhere (g := g) (s := s) he
      rw [hk, taken_append, helse.taken, List.append_nil]
      exact ih hhand

/-! ## After the stop -/

/-- The packet that was in hand has stopped the pump: somebody crashed who was called about it, or
the pump has an error to report that is none of reading. -/
def Fails (d : Direction) (k : List Entry) (q : Phase) : Prop :=
  q.Blamed ∨ q = .crashed ∧ ∃ call ∈ calls d k, call.crashes = true

/-- Between `s` and `t` the pump of a direction has at most gone on with what it had in hand, and
the relay has noted `k`. -/
structure Finishes (g : Gate σ) (d : Direction) (s t : State σ) (k : List Entry) : Prop where
  journal : t.journal = s.journal ++ k
  taken : taken d k = []
  acts : (acts d k ++ (t.phase d).ahead).Sublist (s.phase d).ahead
  about : ∀ f, (s.phase d).StandsFor g d f → (t.phase d).StandsFor g d f ∧
    ∀ a ∈ k, a.act? d ≠ none → About g d f a
  waiting : (s.source d).inlet.arrived <+: (t.source d).inlet.arrived
  halted : (s.phase d).isOver = true → t.phase d = s.phase d
  exit : (s.phase d).isOver = false → (t.phase d).isOver = true →
    t.phase d = .ended none ∨ (s.phase d).frame? ≠ none ∧ Fails d k (t.phase d)

theorem Fails.mono {j k : List Entry} {q : Phase} (h : Fails d j q) (hjk : j ⊆ k) :
    Fails d k q :=
  h.imp_right fun ⟨hq, call, hcall, hcrashes⟩ =>
    ⟨hq, call, List.filterMap_subset _ hjk hcall, hcrashes⟩

theorem Finishes.refl (g : Gate σ) (d : Direction) (s : State σ) : Finishes g d s s [] := by
  refine ⟨(List.append_nil _).symm, rfl, List.Sublist.refl _, fun f hf => ⟨hf, by simp⟩,
    List.prefix_rfl, fun _ => rfl, fun hrunning hover => ?_⟩
  rw [hrunning] at hover
  cases hover

theorem Finishes.frame {k : List Entry} (h : Finishes g d s t k)
    (ht : (t.phase d).frame? ≠ none) : (s.phase d).frame? ≠ none :=
  fun hs => ht (nothing_of_sublist h.acts hs).2

theorem Finishes.trans {j k : List Entry} (hst : Finishes g d s t j) (htu : Finishes g d t u k) :
    Finishes g d s u (j ++ k) := by
  refine ⟨?_, ?_, ?_, ?_, hst.waiting.trans htu.waiting, ?_, ?_⟩
  · rw [htu.journal, hst.journal, List.append_assoc]
  · rw [taken_append, hst.taken, htu.taken, List.append_nil]
  · rw [acts_append, List.append_assoc]
    exact ((List.Sublist.refl _).append htu.acts).trans hst.acts
  · intro f hf
    obtain ⟨ht, hj⟩ := hst.about f hf
    obtain ⟨hu, hk⟩ := htu.about f ht
    refine ⟨hu, fun a ha => ?_⟩
    rcases List.mem_append.mp ha with ha | ha
    · exact hj a ha
    · exact hk a ha
  · intro hover
    have ht := hst.halted hover
    exact (htu.halted (ht ▸ hover)).trans ht
  · intro hrunning hover
    cases ht : (t.phase d).isOver with
    | true =>
      rw [htu.halted ht]
      exact (hst.exit hrunning ht).imp_right fun ⟨hhand, hfails⟩ =>
        ⟨hhand, hfails.mono (List.subset_append_left ..)⟩
    | false =>
      exact (htu.exit ht hover).imp_right fun ⟨hhand, hfails⟩ =>
        ⟨hst.frame hhand, hfails.mono (List.subset_append_right ..)⟩

theorem after_waiting (link : Link) (h : Happening) :
    link.inlet.arrived <+: (link.after h).inlet.arrived := by
  cases h with
  | arrive octets =>
    simp only [Link.after, Link.arrive]
    split
    · exact List.prefix_append ..
    · exact List.prefix_rfl
  | halfClose =>
    simp only [Link.after, Link.halfClose]
    split <;> exact List.prefix_rfl
  | failReading text => exact List.prefix_rfl
  | failWriting text => exact List.prefix_rfl

/-- Only the pump of a direction takes from what waits to be read there. -/
theorem step_waiting {e : Event} (he : e ≠ .pump d) :
    (s.source d).inlet.arrived <+: ((step g s e).source d).inlet.arrived := by
  by_cases hpeer : ∃ h, e = .peer d h
  · obtain ⟨h, rfl⟩ := hpeer
    rw [step, State.setSource_source]
    exact after_waiting _ h
  · have hsame := step_inlet (g := g) (s := s) he fun h hh => hpeer ⟨h, hh⟩
    exact ⟨[], by rw [hsame, List.append_nil]⟩

/-- A step of somebody else leaves the pump of a direction where it is. -/
theorem step_finishes_of_ne {e : Event} (he : e ≠ .pump d) :
    ∃ k, Finishes g d s (step g s e) k := by
  obtain ⟨k, hk, helse⟩ := step_elsewhere (g := g) (s := s) he
  have hphase := step_phase (g := g) (s := s) he
  refine ⟨k, hk, helse.taken, ?_, ?_, step_waiting he, fun _ => hphase, ?_⟩
  · rw [helse.acts, hphase]
    exact List.Sublist.refl _
  · intro f hf
    rw [hphase]
    exact ⟨hf, fun a ha hact => absurd (acts_eq_nil_iff.mp helse.acts a ha) hact⟩
  · intro hrunning hover
    rw [hphase, hrunning] at hover
    cases hover

theorem Phase.frame_of_running {p : Phase} (hover : p.isOver = false) (hp : p ≠ .reading) :
    p.frame? ≠ none := by
  cases p with
  | reading => exact absurd rfl hp
  | ended fault => cases hover
  | crashed => cases hover
  | _ => nofun

/-- A pump that comes to be over after a stop ended at its read without an error, or the packet that
it had in hand stopped it. -/
theorem Turn.exit {connected : Bool} {p q : Phase} {e : Option Entry}
    (h : Turn g connected d p e q) (hover : q.isOver = true) (hp : p ≠ .reading) :
    p.frame? ≠ none ∧ Fails d e.toList q := by
  refine ⟨Phase.frame_of_running h.not_over hp, ?_⟩
  rcases h.of_isOver hover with hreading | ⟨call, rfl, hcrashes, rfl⟩ | hblamed
  · exact absurd hreading hp
  · exact .inr ⟨rfl, call, by simp [calls], hcrashes⟩
  · exact .inl hblamed

/-- A step of a pump that has been told to stop: at its read it ends, and otherwise it goes on with
what it has in hand. -/
theorem pump_finishes (hstop : s.stopped = true) : ∃ k, Finishes g d s (pump g d s) k := by
  by_cases hp : s.phase d = .reading
  · rw [pump_ends hp hstop]
    refine ⟨[], by simp, rfl, ?_, fun f _ => ?_, by simp, fun hover => ?_, fun _ _ => .inl ?_⟩
    · simp [acts, Phase.ahead]
    · rw [State.enter_phase]
      exact ⟨trivial, by simp⟩
    · rw [hp] at hover
      cases hover
    · rw [State.enter_phase]
  · rcases pump_moves g d s with h | ⟨e, q, r, hturn, hperf, h⟩
    · rw [pump_rests g h]
      exact ⟨[], .refl g d s⟩
    · have hne (f : Frame) : e ≠ some (.took d f) := by
        rintro rfl
        cases hperf with
        | take hrun => rw [hstop] at hrun; cases hrun
      rw [h]
      refine ⟨e.toList, hperf.enter_journal q, taken_eq_nil hne, ?_, fun f hf => ?_, ?_, ?_, ?_⟩
      · rw [State.enter_phase]
        exact hturn.acts hne
      · rw [State.enter_phase]
        simpa using hturn.standsFor hne hf
      · have hsame : ((r.enter d q).source d).inlet = (s.source d).inlet := by
          rw [State.enter_source, hperf.inlet hne]
        exact ⟨[], by rw [hsame, List.append_nil]⟩
      · intro hover
        rw [hturn.not_over] at hover
        cases hover
      · intro _ hover
        rw [State.enter_phase] at hover ⊢
        exact .inr (hturn.exit hover hp)

theorem run_finishes (hstop : s.stopped = true) (events : List Event) :
    ∃ k, Finishes g d s (run g s events) k := by
  induction events generalizing s with
  | nil => exact ⟨[], .refl g d s⟩
  | cons e events ih =>
    obtain ⟨k, hk⟩ := ih (step_stopped (g := g) e hstop)
    have hfirst : ∃ j, Finishes g d s (step g s e) j := by
      by_cases he : e = .pump d
      · rw [he, step]
        exact pump_finishes hstop
      · exact step_finishes_of_ne he
    obtain ⟨j, hj⟩ := hfirst
    exact ⟨j ++ k, hj.trans hk⟩

/-- Once a relay has told its pumps to stop, whatever happens afterwards: a pump takes no frame any
more. It asks about one packet at most, shows one to the interceptor, writes one and tells of one,
in this order, and this is the packet of the last frame taken, if it had that in hand. What waited
to be read stays unread. The pump ends after at most nine more steps of its own, and without an
error unless that packet has stopped it. -/
theorem finishes_packet_in_hand (g : Gate σ) (first : Session) (hooks : σ)
    (events more : List Event) (d : Direction)
    (hstop : (run g (.start first hooks) events).stopped = true) :
    let s := run g (.start first hooks) events
    let t := run g s more
    ∃ k, t.journal = s.journal ++ k ∧ taken d k = [] ∧
      (acts d k).Sublist [.authorize, .intercept, .write, .notify] ∧
      ((s.phase d).frame? = none → acts d k = []) ∧
      (∀ a ∈ k, a.act? d ≠ none →
        ∃ f, (taken d s.journal).getLast? = some f ∧ About g d f a) ∧
      (∃ later, (t.source d).inlet.arrived = (s.source d).inlet.arrived ++ later ∧
        Inlet.Yields (stream d (events ++ more)) (taken d s.journal)
          ((s.source d).inlet.arrived ++ later)) ∧
      (9 ≤ more.count (.pump d) → (t.phase d).isOver = true) ∧
      ((s.phase d).isOver = false → (t.phase d).isOver = true →
        t.phase d = .ended none ∨ (s.phase d).frame? ≠ none ∧ Fails d k (t.phase d)) := by
  intro s t
  obtain ⟨k, hk⟩ := run_finishes (g := g) (d := d) hstop more
  have hidle (hnone : (s.phase d).frame? = none) : acts d k = [] :=
    (nothing_of_sublist hk.acts hnone).1
  refine ⟨k, hk.journal, hk.taken, ?_, hidle, ?_, ?_, run_halts hstop, hk.exit⟩
  · exact ((List.sublist_append_left ..).trans hk.acts).trans (s.phase d).ahead_sublist
  · intro a ha hact
    have hhand : (s.phase d).frame? ≠ none := fun hnone =>
      hact (acts_eq_nil_iff.mp (hidle hnone) a ha)
    obtain ⟨f, hlast, hstands⟩ := run_standsFor g first hooks events d hhand
    exact ⟨f, hlast, (hk.about f hstands).2 a ha hact⟩
  · obtain ⟨later, hlater⟩ := hk.waiting
    have hyields := (run_tracks g first hooks (events ++ more) d).1
    rw [run_append, hk.journal, taken_append, hk.taken, List.append_nil, ← hlater] at hyields
    exact ⟨later, hlater.symm, hyields⟩

/-- Two PUBLISHes and the beginning of a third arrive, and the first is taken when the broker closes
its connection. -/
def stoppedEarly : List Event :=
  [.peer .toBroker (.arrive [0x30, 0x03, 0x00, 0x01, 0x61, 0x30, 0x03, 0x00, 0x01, 0x62, 0x30]),
    .pump .toBroker, .peer .toClient .halfClose, .pump .toClient, .supervise]

/-- The first PUBLISH is finished and nothing else is read. -/
theorem finishes_first_of_three :
    let s := run permissive (.start {} ()) stoppedEarly
    let t := run permissive s (List.replicate 9 (.pump .toBroker))
    (∃ k, t.journal = s.journal ++ k ∧ taken .toBroker k = []) ∧
    acts .toBroker t.journal = [.authorize, .write, .notify] ∧
    (t.source .toBroker).inlet.arrived = [0x30, 0x03, 0x00, 0x01, 0x62, 0x30] ∧
    t.phase .toBroker = .ended none := by
  intro s t
  have hstop : s.stopped = true := by decide +kernel
  obtain ⟨k, hk, htaken, -⟩ := finishes_packet_in_hand permissive {} () stoppedEarly
    (List.replicate 9 (.pump .toBroker)) .toBroker hstop
  exact ⟨⟨k, hk, htaken⟩, by decide +kernel, by decide +kernel, by decide +kernel⟩

end MqttGateway.Relay
