import MqttGateway.Proofs.Relay.Publishing
import MqttGateway.Proofs.Topic.Subscribing
/-!
# What a relay delivers under a policy

A message of the broker goes to the client only if the policy delivers its topic to the session that
the relay has when it asks, and ends the pump with the policy's denial if not. Main statements:
which topics are delivered to a session with a scope, and which denials a session without rules and
scope can meet.
-/
namespace MqttGateway.Relay

variable {σ : Type} {g : Gate σ} {s t : State σ} {first : Session} {p : Policy}
variable {j k : List Entry}

/-- A session that the relay has had since the pump to the client took its last frame. -/
def Recent (first : Session) (j : List Entry) (seen : Session) : Prop :=
  ∃ earlier later, j = earlier ++ later ∧ seen = sessionAfter first earlier ∧
    taken .toClient later = []

theorem Recent.append {seen : Session} (h : Recent first j seen) (hk : taken .toClient k = []) :
    Recent first (j ++ k) seen := by
  obtain ⟨earlier, later, rfl, hseen, hlater⟩ := h
  refine ⟨earlier, later ++ k, List.append_assoc .., hseen, ?_⟩
  rw [taken_append, hlater, hk, List.append_nil]

theorem Sees.recent {seen : Session} (h : Sees first .toClient j seen) : Recent first j seen := by
  obtain ⟨before, after, rfl, hseen, hafter⟩ := h
  refine ⟨before, _, rfl, hseen, List.filterMap_eq_nil_iff.mpr fun e he => ?_⟩
  rcases List.mem_cons.mp he with rfl | he
  · rfl
  · cases e with
    | took c f =>
      have hc : c ≠ .toClient := fun heq => hafter _ he (congrArg some heq)
      simp [hc]
    | _ => rfl

/-! ## Judging a frame -/

def LetThrough (p : Policy) (first : Session) (j : List Entry) (f : Frame) : Prop :=
  ∀ q, f.packet = .publish q → ∃ seen, Recent first j seen ∧ p.Delivers seen q.topic

def TurnedAway (p : Policy) (first : Session) (j : List Entry) (f : Frame) (causes : Refusal) :
    Prop :=
  ∃ q seen denial, f.packet = .publish q ∧ Recent first j seen ∧
    p.authorizeSubscribe seen [q.topic] = .error denial ∧ causes = [denial.message]

theorem LetThrough.append {f : Frame} (h : LetThrough p first j f) (hk : taken .toClient k = []) :
    LetThrough p first (j ++ k) f := by
  intro q hq
  obtain ⟨seen, hrecent, hdelivers⟩ := h q hq
  exact ⟨seen, hrecent.append hk, hdelivers⟩

theorem TurnedAway.append {f : Frame} {causes : Refusal} (h : TurnedAway p first j f causes)
    (hk : taken .toClient k = []) : TurnedAway p first (j ++ k) f causes := by
  obtain ⟨q, seen, denial, hq, hrecent, hdenial, hcauses⟩ := h
  exact ⟨q, seen, denial, hq, hrecent.append hk, hdenial, hcauses⟩

def Phase.Judges (p : Policy) (g : Gate σ) (first : Session) (j : List Entry) : Phase → Prop
  | .authorizing _ f => (taken .toClient j).getLast? = some f
  | .intercepting _ f => (taken .toClient j).getLast? = some f ∧ LetThrough p first j f
  | .writing f' => ∃ f, (taken .toClient j).getLast? = some f ∧ LetThrough p first j f ∧
      (g.interceptor = none → f' = f)
  | .ended (some (.deliveryDenied causes)) =>
    ∃ f, (taken .toClient j).getLast? = some f ∧ TurnedAway p first j f causes
  | _ => True

/-- As long as the pump to the client takes no other frame, it knows what it knows of the last. -/
theorem Phase.Judges.append {q : Phase} (h : q.Judges p g first j) (hk : taken .toClient k = []) :
    q.Judges p g first (j ++ k) := by
  have htaken : taken .toClient (j ++ k) = taken .toClient j := by
    rw [taken_append, hk, List.append_nil]
  cases q with
  | authorizing seen f => exact (congrArg List.getLast? htaken).trans h
  | intercepting seen f =>
    exact ⟨(congrArg List.getLast? htaken).trans h.1, h.2.append hk⟩
  | writing f' =>
    obtain ⟨f, hlast, hthrough, hsame⟩ := h
    exact ⟨f, (congrArg List.getLast? htaken).trans hlast, hthrough.append hk, hsame⟩
  | ended fault =>
    cases fault with
    | none => trivial
    | some fault =>
      cases fault with
      | deliveryDenied causes =>
        obtain ⟨f, hlast, haway⟩ := h
        exact ⟨f, (congrArg List.getLast? htaken).trans hlast, haway.append hk⟩
      | _ => trivial
  | _ => trivial

/-- The answer of the policy to a request for a delivery lets the frame through or turns it away. -/
theorem Authorizes.judges {seen : Session} {f : Frame} {call : Call} {q : Phase} {before after : σ}
    (h : Authorizes seen f .toClient call q) (hg : g.handler = p.handler σ)
    (hcall : call.AnsweredBy g before after) (hlast : (taken .toClient j).getLast? = some f)
    (hrecent : Recent first j seen) : q.Judges p g first j := by
  cases h with
  | @delivery asked reply hf =>
    rw [Call.AnsweredBy, hg] at hcall
    have hreply : Policy.reply (p.authorizeSubscribe seen [asked.topic]) = reply :=
      congrArg Prod.fst hcall
    cases hdecided : p.authorizeSubscribe seen [asked.topic] with
    | ok filters =>
      rw [hdecided] at hreply
      obtain rfl : reply = .done filters := hreply.symm
      refine ⟨hlast, fun q hq => ?_⟩
      cases hf.symm.trans hq
      exact ⟨seen, hrecent, filters, hdecided⟩
    | error denial =>
      rw [hdecided] at hreply
      obtain rfl : reply = .refused [denial.message] := hreply.symm
      exact ⟨f, hlast, asked, seen, denial, hf, hrecent, hdecided, rfl⟩

theorem judges_ofReply {α : Type} (fault : Refusal → PumpFault) {next : α → Phase}
    (reply : Reply α) (hfault : ∀ causes denied, fault causes ≠ .deliveryDenied denied)
    (h : ∀ a, (next a).Judges p g first j) :
    (Phase.ofReply fault next reply).Judges p g first j := by
  cases reply with
  | done a => exact h a
  | refused causes =>
    show (Phase.ended (some (fault causes))).Judges p g first j
    cases hcauses : fault causes with
    | deliveryDenied denied => exact absurd hcauses (hfault causes denied)
    | _ => trivial
  | crashed => trivial

theorem Turn.judges {connected : Bool} {q r : Phase} {e : Option Entry} {before after : σ}
    (h : Turn g connected .toClient q e r) (hg : g.handler = p.handler σ)
    (hq : q.Judges p g first j) (hidle : ∀ session f, q ≠ .storing session f)
    (hrecent : ∀ seen, q.seen? = some seen → Recent first j seen)
    (hcall : ∀ call, e = some (.called .toClient call) → call.AnsweredBy g before after) :
    r.Judges p g first (j ++ e.toList) := by
  cases h with
  | take f => simp [Phase.Judges, taken]
  | halt error => cases error <;> trivial
  | lookToAuthorize => exact hq.append rfl
  | again hd => cases hd
  | @authorize seen f call _ hauth _ =>
    exact (hauth.judges hg (hcall _ rfl) hq (hrecent _ rfl)).append rfl
  | pass hneeds =>
    rw [Option.toList_none, List.append_nil]
    refine ⟨hq, fun asked hasked => ?_⟩
    rw [hasked] at hneeds
    cases hneeds
  | store session f => exact absurd rfl (hidle session f)
  | lookToIntercept => exact hq.append rfl
  | @intercept seen f reply hi =>
    refine (judges_ofReply .intercepted reply (by rintro _ _ ⟨⟩) fun f' => ?_).append rfl
    exact ⟨f, hq.1, hq.2, fun hnone => by rw [hnone] at hi; cases hi⟩
  | @unseen seen f hi =>
    rw [Option.toList_none, List.append_nil]
    exact ⟨f, hq.1, hq.2, fun _ => rfl⟩
  | notify => exact judges_ofReply .notify _ (by rintro _ _ ⟨⟩) fun _ => trivial
  | _ => trivial

/-! ## Runs -/

structure Judged (p : Policy) (g : Gate σ) (first : Session) (s : State σ) : Prop where
  knows : Knows g first s
  judges : (s.phase .toClient).Judges p g first s.journal

theorem Judged.of_eq (hs : Judged p g first s) (hjournal : t.journal = s.journal)
    (hsession : t.session = s.session) (hconnected : t.connected = s.connected)
    (hphase : ∀ d, t.phase d = s.phase d) : Judged p g first t := by
  refine ⟨hs.knows.of_eq hjournal hsession hconnected hphase, ?_⟩
  rw [hjournal, hphase]
  exact hs.judges

theorem Judged.moves (hg : g.handler = p.handler σ) (hs : Judged p g first s) {d : Direction}
    (h : Moves g d s t) : Judged p g first t := by
  have hknows := hs.knows.moves h
  obtain ⟨e, q, r, hturn, hperf, rfl⟩ := h
  refine ⟨hknows, ?_⟩
  rw [hperf.enter_journal]
  cases d with
  | toClient =>
    rw [State.enter_phase]
    have hcall (call : Call) (he : e = some (.called .toClient call)) :
        call.AnsweredBy g s.hooks r.hooks := by
      subst he
      exact hperf.answeredBy
    exact hturn.judges hg hs.judges hs.knows.idle
      (fun seen hseen => (hs.knows.sees .toClient seen hseen).recent) hcall
  | toBroker =>
    rw [hperf.enter_phase_of_ne q (c := .toClient) nofun]
    exact hs.judges.append (hperf.elsewhere (d := .toClient) nofun).1

theorem Judged.concludes (hs : Judged p g first s) (h : Concludes s t) : Judged p g first t := by
  have hknows := hs.knows.concludes h
  obtain ⟨k, hk, hlast⟩ := h.journal
  refine ⟨hknows, ?_⟩
  rw [h.phase, hk]
  exact hs.judges.append (taken_last hlast)

theorem Judged.start (p : Policy) (g : Gate σ) (first : Session) (hooks : σ) :
    Judged p g first (State.start first hooks) :=
  ⟨.start g first hooks, trivial⟩

def Delivered (p : Policy) (g : Gate σ) (first : Session) (j : List Entry) : Entry → Prop
  | .wrote d f' octets => d = .toClient → ∃ f, (taken .toClient j).getLast? = some f ∧
      LetThrough p first j f ∧ (g.interceptor = none → f' = f) ∧ f'.wire = .ok octets
  | _ => True

theorem Judged.delivered (hs : Judged p g first s) {d : Direction} {e : Entry} {q : Phase}
    (h : Turn g s.connected d (s.phase d) (some e) q) : Delivered p g first s.journal e := by
  cases e with
  | wrote c f' octets =>
    rintro rfl
    obtain ⟨rfl, hp, hwire⟩ := h.of_wrote
    have hjudges := hs.judges
    rw [hp] at hjudges
    obtain ⟨f, hlast, hthrough, hsame⟩ := hjudges
    exact ⟨f, hlast, hthrough, hsame, hwire⟩
  | _ => trivial

theorem run_judged (p : Policy) (hg : g.handler = p.handler σ) (first : Session) (hooks : σ)
    (events : List Event) : Judged p g first (run g (.start first hooks) events) ∧
      Orderly (Delivered p g first) (run g (.start first hooks) events).journal :=
  run_orderly (.start p g first hooks) (.nil _) Judged.of_eq (fun hs h => hs.moves hg h)
    (fun hs hturn _ => hs.delivered hturn) Judged.concludes (fun _ => trivial)
    (fun _ _ _ _ => trivial) events

/-! ## Deliveries to a session with a scope -/

def sending (octets : Octets) : List Event :=
  .peer .toClient (.arrive octets) :: List.replicate 6 (.pump .toClient)

theorem run_sending (hg : g.handler = p.handler σ) (hi : g.interceptor = none) (first : Session)
    (hooks : σ) {q : Publish} {octets : Octets}
    (htake : Inlet.take ⟨octets, .open⟩ = .frame ⟨.publish q, some octets⟩ []) :
    ((run g (.start first hooks) (sending octets)).sink .toClient).outlet.written = octets ↔
      p.Delivers first q.topic := by
  have hne : octets ≠ [] := by
    rintro rfl
    cases htake
  cases hdecided : p.authorizeSubscribe first [q.topic] with
  | ok filters =>
    refine iff_of_true ?_ ⟨filters, hdecided⟩
    simp [sending, run, step, pump, State.start, State.phase, State.setSource, State.source,
      Link.after, Link.arrive, read, htake, State.note, State.enter, Phase.report?, look, authorize,
      authorizeDelivery, State.ask, hg, Policy.handler, hdecided, Policy.reply, Phase.ofReply,
      State.withHooks, intercept, hi, write, writeFrame, State.sink, State.setSink,
      Direction.opposite, Frame.wire, Outlet.write, Phase.afterWriting, bind, Except.bind, pure,
      Except.pure, List.replicate]
  | error denial =>
    have hnot : ¬ p.Delivers first q.topic := by
      rintro ⟨filters, hok⟩
      rw [hdecided] at hok
      cases hok
    refine iff_of_false ?_ hnot
    simp [sending, run, step, pump, State.start, State.phase, State.setSource, State.source,
      Link.after, Link.arrive, read, htake, State.note, State.enter, Phase.report?, look, authorize,
      authorizeDelivery, State.ask, hg, Policy.handler, hdecided, Policy.reply, Phase.ofReply,
      State.withHooks, State.sink, Direction.opposite, List.replicate, hne.symm]

/-- Whatever goes to a client comes, unless an interceptor puts something in its place, as the
broker sent it. A message is from inside of the scope that the session has when it is asked about,
and allowed by what its topic is called there, or from outside and allowed by its topic as it is.
Nothing else keeps one of either kind from going to the client. -/
theorem delivers_inside_or_outside (p : Policy) {scope : Scope} (hscope : p.scope = some scope)
    {g : Gate σ} (hg : g.handler = p.handler σ) (first : Session) (hooks : σ) :
    (∀ events, let s := run g (.start first hooks) events
      (s.sink .toClient).outlet.written = (forwarded .toClient s.journal).flatMap (·.2) ∧
      ∀ before f' octets after, s.journal = before ++ .wrote .toClient f' octets :: after →
        ∃ f, (taken .toClient before).getLast? = some f ∧
          (g.interceptor = none → f' = f ∧ f.received = some octets) ∧
          ∀ q, f.packet = .publish q → ∃ seen, Recent first before seen ∧
            Topic.isFilter q.topic = true ∧
            (p.DeliversInside scope seen q.topic ∨ p.DeliversOutside scope seen q.topic)) ∧
    (g.interceptor = none → ∀ q octets,
      Inlet.take ⟨octets, .open⟩ = .frame ⟨.publish q, some octets⟩ [] →
      (((run g (.start first hooks) (sending octets)).sink .toClient).outlet.written = octets ↔
        Topic.isFilter q.topic = true ∧
          (p.DeliversInside scope first q.topic ∨ p.DeliversOutside scope first q.topic))) := by
  refine ⟨fun events => ⟨run_sent_toClient g first hooks events, ?_⟩, fun hi q octets htake => ?_⟩
  · intro before f' octets after hj
    obtain ⟨f, hlast, hthrough, hsame, hwire⟩ :=
      (run_judged p hg first hooks events).2 _ _ _ hj rfl
    have hintact := run_intact g first hooks events hj hlast
    refine ⟨f, hlast, fun hnone => ⟨hsame hnone, ?_⟩, fun q hq => ?_⟩
    · rw [hsame hnone] at hwire
      exact (hintact.decode hwire).1
    · obtain ⟨seen, hrecent, hdelivers⟩ := hthrough q hq
      exact ⟨seen, hrecent, (Policy.delivers_scoped_iff hscope).mp hdelivers⟩
  · exact (run_sending hg hi first hooks htake).trans (Policy.delivers_scoped_iff hscope)

/-- A message that the broker publishes under `u/t`. -/
def messageInside : Octets :=
  [0x30, 0x05, 0x00, 0x03, 0x75, 0x2F, 0x74]

theorem take_messageInside : Inlet.take ⟨messageInside, .open⟩ =
    .frame ⟨.publish ⟨"u/t", [], 0, false, false, none⟩, some messageInside⟩ [] := by
  have hframe : IsFrame messageInside :=
    ⟨0x30, [0x05], [0x00, 0x03, 0x75, 0x2F, 0x74], rfl, [], 0x05, rfl, by decide, by simp,
      by decide, rfl⟩
  exact Inlet.take_eq_frame_iff.mpr ⟨messageInside, hframe, rfl, rfl, by decide +kernel⟩

theorem delivers_below_u :
    belowU.scope = some ⟨"u"⟩ ∧ (policed belowU Unit).handler = belowU.handler Unit ∧
    ((run (policed belowU Unit) (.start {} ()) (sending messageInside)).sink
      .toClient).outlet.written = messageInside := by
  refine ⟨rfl, rfl, ((delivers_inside_or_outside belowU rfl (g := policed belowU Unit) rfl {} ()).2
    rfl _ _ take_messageInside).mpr ⟨by decide +kernel, .inl ⟨"t", ?_, rfl⟩⟩⟩
  rw [Scope.apply, root_u]
  decide +kernel

/-- A message that the broker publishes under `t`. -/
def messageOutside : Octets :=
  [0x30, 0x03, 0x00, 0x01, 0x74]

/-- A message from outside of every session's scope goes to the client. -/
theorem delivers_outside_u :
    belowU.scope = some ⟨"u"⟩ ∧
    (let s := run (policed belowU Unit) (.start {} ()) (sending messageOutside)
     forwarded .toClient s.journal =
        [(⟨.publish ⟨"t", [], 0, false, false, none⟩, some messageOutside⟩, messageOutside)] ∧
      (s.sink .toClient).outlet.written = messageOutside) ∧
    ∀ s, ¬ belowU.DeliversInside ⟨"u"⟩ s "t" := by
  refine ⟨rfl, by decide +kernel, ?_⟩
  rintro s ⟨inner, hinner, -⟩
  have hlist : "t".toList = ['u', '/'] ++ inner.toList := by
    rw [hinner, Scope.apply, root_u, String.toList_ofList]
  cases hlist

/-! ## Deliveries without rules and scope -/

/-- Without rules and scope a topic that an accepted filter covers is delivered exactly if it has no
empty level, and there are such topics with empty levels unless each of the filters is `+` or has no
wildcard. A denial that ends the pump to the client always comes from a topic that could not be a
filter. -/
theorem delivers_accepted_iff_no_empty_level (p : Policy) (haccess : p.access.enabled = false)
    (hscope : p.scope = none) :
    (∀ s filters accepted, p.authorizeSubscribe s filters = .ok accepted → accepted = filters ∧
      (∀ topic, Topic.isPublishable topic = true →
        (∃ filter ∈ accepted, Topic.isCovered topic filter = true) →
        (p.authorizeSubscribe s [topic] = .ok [topic] ↔ [] ∉ Topic.levels topic)) ∧
      ((∀ topic, Topic.isPublishable topic = true →
        (∃ filter ∈ accepted, Topic.isCovered topic filter = true) → p.Delivers s topic) ↔
        ∀ filter ∈ accepted,
          filter = "+" ∨ ∀ level ∈ Topic.levels filter, Topic.isPlain level = true)) ∧
    ∀ g : Gate σ, g.handler = p.handler σ → ∀ first hooks events causes,
      let s := run g (.start first hooks) events
      s.phase .toClient = .ended (some (.deliveryDenied causes)) →
        ∃ f q, (taken .toClient s.journal).getLast? = some f ∧ f.packet = .publish q ∧
          causes = ["invalid topic filter '" ++ q.topic ++ "'"] ∧
          Topic.isFilter q.topic = false ∧
          (Topic.isPublishable q.topic = true → [] ∈ Topic.levels q.topic) := by
  constructor
  · intro s filters accepted haccepted
    obtain ⟨rfl, hfilters⟩ :=
      (Policy.authorizeSubscribe_eq_ok_iff_of_open haccess hscope).mp haccepted
    refine ⟨rfl, fun topic htopic _ => ?_, ?_⟩
    · rw [Policy.authorizeSubscribe_eq_ok_iff_of_open haccess hscope,
        ← Topic.isFilter_iff_of_publishable htopic]
      simp
    · constructor
      · intro h filter hmem
        refine (Topic.covers_no_empty_level_iff (hfilters filter hmem)).mp
          fun topic htopic hcovered => ?_
        rw [← Topic.isFilter_iff_of_publishable htopic,
          ← Policy.delivers_iff_of_open (s := s) haccess hscope]
        exact h topic htopic ⟨filter, hmem, hcovered⟩
      · rintro h topic htopic ⟨filter, hmem, hcovered⟩
        rw [Policy.delivers_iff_of_open haccess hscope, Topic.isFilter_iff_of_publishable htopic]
        exact (Topic.covers_no_empty_level_iff (hfilters filter hmem)).mpr (h filter hmem) topic
          htopic hcovered
  · intro g hg first hooks events causes s hended
    have hjudges := (run_judged p hg first hooks events).1.judges
    rw [hended] at hjudges
    obtain ⟨f, hlast, q, seen, denial, hq, -, hdenial, rfl⟩ := hjudges
    obtain ⟨hfilter, rfl⟩ := Policy.authorizeSubscribe_eq_error_of_open haccess hscope hdenial
    refine ⟨f, q, hlast, hq, rfl, hfilter, fun htopic => ?_⟩
    by_contra hlevels
    rw [(Topic.isFilter_iff_of_publishable htopic).mpr hlevels] at hfilter
    cases hfilter

theorem delivers_one_level :
    ({} : Policy).access.enabled = false ∧ ({} : Policy).scope = none ∧
    ({} : Policy).authorizeSubscribe {} ["a/+"] = .ok ["a/+"] ∧
    ({} : Policy).authorizeSubscribe {} ["a/b"] = .ok ["a/b"] := by
  have haccepted : ({} : Policy).authorizeSubscribe {} ["a/+"] = .ok ["a/+"] := by decide +kernel
  obtain ⟨-, hdelivers, -⟩ :=
    (delivers_accepted_iff_no_empty_level (σ := Unit) {} rfl rfl).1 _ _ _ haccepted
  exact ⟨rfl, rfl, haccepted, (hdelivers "a/b" (by decide +kernel)
    ⟨"a/+", List.mem_singleton_self _, by decide +kernel⟩).mpr (by decide +kernel)⟩

/-- A message that the broker publishes under `/x`. -/
def messageEmptyLevel : Octets :=
  [0x30, 0x04, 0x00, 0x02, 0x2F, 0x78]

/-- All topics can be subscribed to, but a message under a topic with an empty level ends the
session. -/
theorem ends_at_empty_level :
    ({} : Policy).authorizeSubscribe {} ["#"] = .ok ["#"] ∧
    Topic.isPublishable "/x" = true ∧ Topic.isCovered "/x" "#" = true ∧
    ({} : Policy).authorizeSubscribe {} ["/x"] = .error (.badFilter "/x") ∧
    (run (policed {} Unit) (.start {} ()) (sending messageEmptyLevel)).phase .toClient =
      .ended (some (.deliveryDenied ["invalid topic filter '/x'"])) := by
  decide +kernel

end MqttGateway.Relay
