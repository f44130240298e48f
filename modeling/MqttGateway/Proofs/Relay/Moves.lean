import MqttGateway.Relay.Run
/-!
# What a pump can do

A step of a pump is a turn of the pump itself, from one phase to the next, together with what the
turn does to the rest of the relay. The entry that the turn leaves in the journal tells all of the
latter. What holds of every run is proved from these two relations alone.
-/
namespace MqttGateway.Relay

variable {σ : Type}

/-- The answer of a call is the one that is given in `before`, which the call leaves as `after`. -/
def Call.AnsweredBy (g : Gate σ) (before after : σ) : Call → Prop
  | .authorizeConnect s r => g.handler.authorizeConnect s before = (r, after)
  | .authorizePublish s p r => g.handler.authorizePublish s p before = (r, after)
  | .authorizeSubscribe s fs r => g.handler.authorizeSubscribe s fs before = (r, after)
  | .intercept s f d r => ∃ i, g.interceptor = some i ∧ i s f d before = (r, after)
  | .connected s r => g.handler.connected s before = (r, after)
  | .published s p r => g.handler.published s p before = (r, after)
  | .subscribed s fs r => g.handler.subscribed s fs before = (r, after)
  | .unsubscribed s fs r => g.handler.unsubscribed s fs before = (r, after)

/-- Whether a call asks if, or as what, a packet may go on. -/
def Call.isGate : Call → Bool
  | .authorizeConnect .. => true
  | .authorizePublish .. => true
  | .authorizeSubscribe .. => true
  | .intercept .. => true
  | _ => false

def needsAuthorization : Direction → Packet → Bool
  | .toBroker, .connect _ => true
  | .toBroker, .publish _ => true
  | .toBroker, .subscribe _ => true
  | .toClient, .publish _ => true
  | _, _ => false

/-- The call that authorizes a frame for a session, and the phase that its answer leads to. -/
inductive Authorizes (seen : Session) (f : Frame) : Direction → Call → Phase → Prop
  | connect {c : Connect} (reply : Reply Session) : f.packet = .connect c →
      Authorizes seen f .toBroker (.authorizeConnect (seen.withConnect c) reply)
        (.ofReply .unauthorized
          (fun session => .storing session (f.withIdentity c (seen.withConnect c) session)) reply)
  | publish {p : Publish} (reply : Reply Publication) : f.packet = .publish p →
      Authorizes seen f .toBroker (.authorizePublish seen p.publication reply)
        (.ofReply .unauthorized
          (fun content => .intercepting none (f.withPublication p content)) reply)
  | subscribe {p : Subscribe} (reply : Reply (List String)) : f.packet = .subscribe p →
      Authorizes seen f .toBroker (.authorizeSubscribe seen p.filters reply)
        (.ofReply .unauthorized
          (fun filters => if filters = [] then .ended (some (.unauthorized noTopics))
            else .intercepting none (f.withFilters p filters)) reply)
  | delivery {p : Publish} (reply : Reply (List String)) : f.packet = .publish p →
      Authorizes seen f .toClient (.authorizeSubscribe seen [p.topic] reply)
        (.ofReply .deliveryDenied (fun _ => .intercepting none f) reply)

/-- The answer to an authorizing call ends a pump with an error, crashes it, or takes it on to store
the session or to ask the interceptor. -/
theorem Authorizes.leads {seen : Session} {f : Frame} {d : Direction} {call : Call} {q : Phase}
    (h : Authorizes seen f d call q) : (∃ fault, q = .ended (some fault)) ∨ q = .crashed ∨
      (∃ session f', q = .storing session f') ∨ ∃ f', q = .intercepting none f' := by
  cases h with
  | connect reply => cases reply <;> simp [Phase.ofReply]
  | publish reply => cases reply <;> simp [Phase.ofReply]
  | subscribe reply =>
    cases reply with
    | done filters => by_cases hnone : filters = [] <;> simp [Phase.ofReply, hnone]
    | _ => simp [Phase.ofReply]
  | delivery reply => cases reply <;> simp [Phase.ofReply]

inductive Notifies (seen : Session) : Packet → Call → Reply Unit → Prop
  | connected (c : Connect) (reply : Reply Unit) :
      Notifies seen (.connect c) (.connected seen reply) reply
  | published (p : Publish) (reply : Reply Unit) :
      Notifies seen (.publish p) (.published seen p.publication reply) reply
  | subscribed (p : Subscribe) (reply : Reply Unit) :
      Notifies seen (.subscribe p) (.subscribed seen p.filters reply) reply
  | unsubscribed (p : Unsubscribe) (reply : Reply Unit) :
      Notifies seen (.unsubscribe p) (.unsubscribed seen p.filters reply) reply

/-- The turns of the pump of a direction: its phase, the entry it leaves, its next phase. -/
inductive Turn (g : Gate σ) (connected : Bool) (d : Direction) : Phase → Option Entry → Phase → Prop
  | halt (error : Option CodecError) : Turn g connected d .reading none (.ended (error.map .codec))
  | overrun : Turn g connected d .reading none .crashed
  | take (f : Frame) : Turn g connected d .reading (some (.took d f)) (.authorizing none f)
  | lookToAuthorize (seen : Session) (f : Frame) :
      Turn g connected d (.authorizing none f) (some (.looked d seen)) (.authorizing (some seen) f)
  | again {seen : Session} {f : Frame} {c : Connect} : d = .toBroker → f.packet = .connect c →
      connected = true → Turn g connected d (.authorizing (some seen) f) none
        (.ended (some (.unauthorized secondConnect)))
  | authorize {seen : Session} {f : Frame} {call : Call} {p : Phase} :
      Authorizes seen f d call p → (connected = true → ∀ s r, call ≠ .authorizeConnect s r) →
      Turn g connected d (.authorizing (some seen) f) (some (.called d call)) p
  | pass {seen : Session} {f : Frame} : needsAuthorization d f.packet = false →
      Turn g connected d (.authorizing (some seen) f) none (.intercepting none f)
  | store (session : Session) (f : Frame) :
      Turn g connected d (.storing session f) (some (.stored session)) (.intercepting none f)
  | lookToIntercept (seen : Session) (f : Frame) :
      Turn g connected d (.intercepting none f) (some (.looked d seen))
        (.intercepting (some seen) f)
  | intercept {seen : Session} {f : Frame} (reply : Reply Frame) : g.interceptor.isSome →
      Turn g connected d (.intercepting (some seen) f)
        (some (.called d (.intercept seen f d reply))) (.ofReply .intercepted .writing reply)
  | unseen {seen : Session} {f : Frame} : g.interceptor = none →
      Turn g connected d (.intercepting (some seen) f) none (.writing f)
  | write {f : Frame} {octets : Octets} : f.wire = .ok octets →
      Turn g connected d (.writing f) (some (.wrote d f octets)) (.afterWriting d f)
  | unwritten {f : Frame} (error : CodecError) :
      Turn g connected d (.writing f) none (.ended (some (.write error)))
  | lookToNotify (seen : Session) (f : Frame) :
      Turn g connected d (.notifying none f) (some (.looked d seen)) (.notifying (some seen) f)
  | notify {seen : Session} {f : Frame} {call : Call} {reply : Reply Unit} :
      Notifies seen f.packet call reply →
      Turn g connected d (.notifying (some seen) f) (some (.called d call))
        (.ofReply .notify (fun _ => .reading) reply)
  | untold {seen : Session} {f : Frame} :
      (∀ call reply, ¬ Notifies seen f.packet call reply) →
      Turn g connected d (.notifying (some seen) f) none .reading

/-- What a turn with a given entry does to the rest of the relay. -/
inductive Performs (g : Gate σ) (d : Direction) (s : State σ) : Option Entry → State σ → Prop
  | nothing : Performs g d s none s
  | take {f : Frame} {rest : Octets} : s.stopped = false →
      (s.source d).inlet.take = .frame f rest →
      Performs g d s (some (.took d f))
        ((s.setSource d { s.source d with
          inlet := { (s.source d).inlet with arrived := rest } }).note (.took d f))
  | look : Performs g d s (some (.looked d s.session)) (s.note (.looked d s.session))
  | call {call : Call} {hooks : σ} : call.AnsweredBy g s.hooks hooks →
      Performs g d s (some (.called d call)) ((s.withHooks hooks).note (.called d call))
  | store (session : Session) :
      Performs g d s (some (.stored session))
        ((s.withSession session).note (.stored session))
  | write {f : Frame} {octets : Octets} : f.wire = .ok octets → (s.sink d).outlet.broken = none →
      Performs g d s (some (.wrote d f octets))
        ((s.setSink d { s.sink d with
          outlet := ⟨(s.sink d).outlet.written ++ octets, none⟩ }).note (.wrote d f octets))

def Moves (g : Gate σ) (d : Direction) (s t : State σ) : Prop :=
  ∃ e p r, Turn g s.connected d (s.phase d) e p ∧ Performs g d s e r ∧ t = r.enter d p

def Rests (d : Direction) (s : State σ) : Prop :=
  (s.phase d).isOver = true ∨
    s.phase d = .reading ∧ s.stopped = false ∧ (s.source d).inlet.take = .waiting

theorem pump_rests (g : Gate σ) {d : Direction} {s : State σ} (h : Rests d s) : pump g d s = s := by
  rcases h with hover | ⟨hp, hstop, htake⟩
  · unfold pump
    cases hp : s.phase d with
    | ended fault => rfl
    | crashed => rfl
    | _ => rw [hp] at hover; cases hover
  · simp only [pump, hp, read, hstop, htake, Bool.false_eq_true, if_false]

theorem moves_of_turn {g : Gate σ} {d : Direction} {s : State σ} {p q : Phase}
    (hp : s.phase d = p) (h : Turn g s.connected d p none q) : Moves g d s (s.enter d q) :=
  ⟨none, q, s, hp ▸ h, .nothing, rfl⟩

theorem look_moves {g : Gate σ} {d : Direction} {s : State σ} {p : Phase} {next : Session → Phase}
    (hp : s.phase d = p)
    (h : Turn g s.connected d p (some (.looked d s.session)) (next s.session)) :
    Moves g d s (look s d next) :=
  ⟨_, _, _, hp ▸ h, .look, rfl⟩

theorem ask_moves {α : Type} {g : Gate σ} {d : Direction} {s : State σ} {p : Phase}
    {call : Reply α → Call} {hook : Hook σ α} {next : Reply α → Phase} (hp : s.phase d = p)
    (hcall : ∀ r after, hook s.hooks = (r, after) → (call r).AnsweredBy g s.hooks after)
    (hturn : ∀ r, Turn g s.connected d p (some (.called d (call r))) (next r)) :
    Moves g d s (s.ask d call hook next) := by
  subst hp
  cases h : hook s.hooks with
  | mk r after =>
    refine ⟨_, next r, _, hturn r, .call (hcall r after h), ?_⟩
    simp only [State.ask, h]

theorem authorize_moves {g : Gate σ} {d : Direction} {s : State σ} {seen : Session} {f : Frame}
    (hp : s.phase d = .authorizing (some seen) f) : Moves g d s (authorize g s d seen f) := by
  unfold authorize
  split
  case h_1 c hf =>
    unfold authorizeConnect
    split
    case isTrue hc => exact moves_of_turn hp (.again rfl hf hc)
    case isFalse hc =>
      refine ask_moves hp (fun _ _ h => h) fun r => .authorize (.connect r hf) ?_
      intro h
      exact absurd h hc
  case h_2 p hf =>
    exact ask_moves hp (fun _ _ h => h) fun r =>
      .authorize (.publish r hf) fun _ _ _ => Call.noConfusion
  case h_3 p hf =>
    exact ask_moves hp (fun _ _ h => h) fun r =>
      .authorize (.subscribe r hf) fun _ _ _ => Call.noConfusion
  case h_4 p hf =>
    exact ask_moves hp (fun _ _ h => h) fun r =>
      .authorize (.delivery r hf) fun _ _ _ => Call.noConfusion
  case h_5 d _ h1 h2 h3 h4 =>
    refine moves_of_turn hp (.pass ?_)
    cases d <;> cases hf : f.packet <;> simp_all [needsAuthorization]

theorem intercept_moves {g : Gate σ} {d : Direction} {s : State σ} {seen : Session} {f : Frame}
    (hp : s.phase d = .intercepting (some seen) f) : Moves g d s (intercept g s d seen f) := by
  unfold intercept
  split
  case h_1 hi => exact moves_of_turn hp (.unseen hi)
  case h_2 i hi =>
    exact ask_moves hp (fun _ _ h => ⟨i, hi, h⟩) fun r => .intercept r (by simp [hi])

section Writing

variable {s : State σ} {d : Direction} {f : Frame} {octets : Octets}

theorem write_error {error : CodecError} (hwire : f.wire = .error error) :
    write s d f = s.enter d (.ended (some (.write error))) := by
  simp only [write, writeFrame, hwire, bind, Except.bind]

theorem write_broken {text : String} (hwire : f.wire = .ok octets)
    (hbroken : (s.sink d).outlet.broken = some text) :
    write s d f = s.enter d (.ended (some (.write (.io text)))) := by
  simp only [write, writeFrame, Outlet.write, hwire, hbroken, bind, Except.bind]

theorem write_open (hwire : f.wire = .ok octets) (hopen : (s.sink d).outlet.broken = none) :
    write s d f = ((s.setSink d { s.sink d with
      outlet := ⟨(s.sink d).outlet.written ++ octets, none⟩ }).note (.wrote d f octets)).enter d
        (.afterWriting d f) := by
  simp only [write, writeFrame, Outlet.write, hwire, hopen, bind, Except.bind, pure, Except.pure]

theorem write_moves {g : Gate σ} (hp : s.phase d = .writing f) : Moves g d s (write s d f) := by
  cases hwire : f.wire with
  | error error =>
    rw [write_error hwire]
    exact moves_of_turn hp (.unwritten error)
  | ok octets =>
    cases hbroken : (s.sink d).outlet.broken with
    | some text =>
      rw [write_broken hwire hbroken]
      exact moves_of_turn hp (.unwritten (.io text))
    | none =>
      rw [write_open hwire hbroken]
      exact ⟨_, _, _, hp ▸ Turn.write hwire, .write hwire hbroken, rfl⟩

end Writing

theorem notify_moves {g : Gate σ} {d : Direction} {s : State σ} {seen : Session} {f : Frame}
    (hp : s.phase d = .notifying (some seen) f) : Moves g d s (notify g s d seen f) := by
  unfold notify
  cases hf : f.packet with
  | connect c => exact ask_moves hp (fun _ _ h => h) fun r => .notify (hf ▸ .connected c r)
  | publish p => exact ask_moves hp (fun _ _ h => h) fun r => .notify (hf ▸ .published p r)
  | subscribe p => exact ask_moves hp (fun _ _ h => h) fun r => .notify (hf ▸ .subscribed p r)
  | unsubscribe p => exact ask_moves hp (fun _ _ h => h) fun r => .notify (hf ▸ .unsubscribed p r)
  | _ =>
    refine moves_of_turn hp (.untold fun call reply h => ?_)
    rw [hf] at h
    cases h

theorem read_moves {g : Gate σ} {d : Direction} {s : State σ} (hp : s.phase d = .reading) :
    Rests d s ∨ Moves g d s (read s d) := by
  cases hs : s.stopped with
  | true =>
    simp only [read, hs, if_true]
    exact .inr (moves_of_turn hp (.halt none))
  | false =>
    simp only [read, hs, Bool.false_eq_true, if_false]
    cases ht : (s.source d).inlet.take with
    | waiting => exact .inl (.inr ⟨hp, hs, ht⟩)
    | closed => exact .inr (moves_of_turn hp (.halt none))
    | failed halt rest =>
      cases halt with
      | error error => exact .inr (moves_of_turn hp (.halt (some error)))
      | overrun => exact .inr (moves_of_turn hp .overrun)
    | frame f rest => exact .inr ⟨_, _, _, hp ▸ Turn.take f, .take hs ht, rfl⟩

/-- A pump that does not rest makes one of its moves. -/
theorem pump_moves (g : Gate σ) (d : Direction) (s : State σ) :
    Rests d s ∨ Moves g d s (pump g d s) := by
  unfold pump
  split
  case h_1 hp => exact read_moves hp
  case h_2 f hp => exact .inr (look_moves hp (.lookToAuthorize _ f))
  case h_3 seen f hp => exact .inr (authorize_moves hp)
  case h_4 session f hp => exact .inr ⟨_, _, _, hp ▸ Turn.store session f, .store session, rfl⟩
  case h_5 f hp => exact .inr (look_moves hp (.lookToIntercept _ f))
  case h_6 seen f hp => exact .inr (intercept_moves hp)
  case h_7 f hp => exact .inr (write_moves hp)
  case h_8 f hp => exact .inr (look_moves hp (.lookToNotify _ f))
  case h_9 seen f hp => exact .inr (notify_moves hp)
  case h_10 fault hp => exact .inl (.inl (by rw [hp]; rfl))
  case h_11 hp => exact .inl (.inl (by rw [hp]; rfl))

end MqttGateway.Relay
