import MqttGateway.Proofs.Relay.Delivering
/-!
# What is unsubscribed from

A policy moves the filters of a SUBSCRIBE into the scope of the session. An UNSUBSCRIBE goes to the
broker as it is. Main statement: it takes back what the client has subscribed to with the same
filters exactly if the policy has left each of them where it was.
-/
namespace MqttGateway

theorem Subscribe.filters_withFilters (q : Subscribe) (filters : List String) :
    (q.withFilters filters).filters = filters := by
  refine List.ext_getElem? fun i => ?_
  simp only [withFilters, Subscribe.filters, List.getElem?_map, List.getElem?_mapIdx,
    Option.map_map]
  exact congrFun Option.map_id _

namespace Policy

variable {p : Policy} {s : Session}

def Leaves (p : Policy) (s : Session) (topic : String) : Prop :=
  ∀ scope, p.scope = some scope → ∃ inner, topic = scope.apply inner s.username s.id

theorem forwarded_eq_self_iff {topic : String} :
    (p.localize s topic).forwarded = topic ↔ p.Leaves s topic := by
  unfold localize Leaves
  cases hscope : p.scope with
  | none => simp
  | some scope =>
    simp only [Option.some.injEq, forall_eq']
    cases hstrip : scope.strip? topic s.username s.id with
    | none =>
      have hout := (scope.strip?_eq_none_iff _ _).mp hstrip
      constructor
      · intro h
        exact absurd h.symm (hout topic)
      · rintro ⟨inner, hinner⟩
        exact absurd hinner (hout inner)
    | some inner => exact iff_of_true rfl ⟨inner, (scope.strip?_eq_some_iff _ _).mp hstrip⟩

theorem authorizeSubscribe_eq_ok {filters accepted : List String}
    (h : p.authorizeSubscribe s filters = .ok accepted) :
    accepted = filters.map fun filter => (p.localize s filter).forwarded := by
  rw [authorizeSubscribe, mapM_eq_ok_iff] at h
  induction h with
  | nil => rfl
  | cons hfilter _ ih => rw [List.map_cons, (authorizeFilter_eq_ok_iff.mp hfilter).2.2, ih]

/-- Accepted filters are those that were asked for if the policy leaves each of them. -/
theorem accepted_eq_iff {filters accepted : List String}
    (h : p.authorizeSubscribe s filters = .ok accepted) :
    filters = accepted ↔ ∀ filter ∈ filters, p.Leaves s filter := by
  rw [authorizeSubscribe_eq_ok h, eq_comm]
  nth_rewrite 2 [← List.map_id filters]
  rw [List.map_inj_left]
  simp only [id_eq, forwarded_eq_self_iff]

end Policy

namespace Relay

variable {σ : Type} {g : Gate σ} {s : State σ} {first : Session} {p : Policy}

/-! ## What the broker reads -/

structure Applies (p : Policy) (session : Session) (f : Frame) (packet : Packet) : Prop where
  subscribe : ∀ q, f.packet = .subscribe q → ∃ q', packet = .subscribe q' ∧
    p.authorizeSubscribe session q.filters = .ok q'.filters
  unsubscribe : ∀ u, f.packet = .unsubscribe u → packet = .unsubscribe u

/-- A frame that goes on as it came is read as it was. -/
theorem Applies.untouched {session : Session} {f : Frame} {octets : Octets} (hf : f.Intact)
    (hwire : f.wire = .ok octets) (hsubscribe : ∀ q, f.packet = .subscribe q →
      p.authorizeSubscribe session q.filters = .ok q.filters) :
    ∃ packet, (∀ more ending, Inlet.take ⟨octets ++ more, ending⟩ =
      .frame ⟨packet, some octets⟩ more) ∧ Applies p session f packet :=
  ⟨f.packet, hf.take_wire hwire, fun q hq => ⟨q, hq, hsubscribe q hq⟩, fun _ hu => hu⟩

theorem Replaces.applies {session : Session} {f f' : Frame} {octets : Octets}
    (h : Replaces p session f f') (hf : f.Intact) (hwire : f'.wire = .ok octets) :
    ∃ packet, (∀ more ending, Inlet.take ⟨octets ++ more, ending⟩ =
      .frame ⟨packet, some octets⟩ more) ∧ Applies p session f packet := by
  cases h with
  | same _ hne => exact Applies.untouched hf hwire fun q hq => absurd hq (hne q)
  | @publication q content hq hcontent =>
    unfold Frame.withPublication at hwire
    split at hwire
    case isTrue => exact Applies.untouched hf hwire fun q' hq' => nomatch hq.symm.trans hq'
    case isFalse =>
      obtain ⟨id, -, hframe, hdecode⟩ := Packet.decode_publish ((Frame.wire_eq_ok_iff rfl).mp hwire)
      exact ⟨_, Packet.take_frame hframe hdecode, ⟨fun q' hq' => (nomatch hq.symm.trans hq'),
        fun u hu => (nomatch hq.symm.trans hu)⟩⟩
  | @filters q filters hq hfilters =>
    unfold Frame.withFilters at hwire
    split at hwire
    case isTrue hsame =>
      refine Applies.untouched hf hwire fun q' hq' => ?_
      cases hq.symm.trans hq'
      rw [hfilters, hsame]
    case isFalse =>
      obtain ⟨hframe, hdecode⟩ := Packet.decode_subscribe ((Frame.wire_eq_ok_iff rfl).mp hwire)
      refine ⟨_, Packet.take_frame hframe hdecode, ?_, fun u hu => nomatch hq.symm.trans hu⟩
      rintro _ hq'
      cases hq.symm.trans hq'
      exact ⟨_, rfl, (q.filters_withFilters filters).symm ▸ hfilters⟩

/-! ## Runs -/

def Forwards (j before : List Entry) (f : Frame) (packet : Packet) : Prop :=
  ∃ f' octets after, j = before ++ .wrote .toBroker f' octets :: after ∧
    (taken .toBroker before).getLast? = some f ∧
    ∀ more ending, Inlet.take ⟨octets ++ more, ending⟩ = .frame ⟨packet, some octets⟩ more

/-- Whatever is written after the same entries is read as the same packet. -/
theorem Forwards.applies {hooks : σ} {events : List Event} {before : List Entry} {f : Frame}
    {packet : Packet}
    (h : Forwards (run (policed p σ) (.start first hooks) events).journal before f packet) :
    Applies p (sessionAfter first before) f packet := by
  obtain ⟨f', octets, after, hsplit, hlast, htake⟩ := h
  obtain ⟨_, hlast', hintact, hreplaces, hwire⟩ :=
    (run_replaced p first hooks events).2 _ _ _ hsplit rfl
  cases hlast.symm.trans hlast'
  obtain ⟨packet', htake', happlies⟩ := hreplaces.applies hintact hwire
  have hread := (htake [] .open).symm.trans (htake' [] .open)
  injection hread with hframe
  injection hframe with hpacket
  exact hpacket ▸ happlies

theorem exists_forwards {hooks : σ} {events : List Event} {before after : List Entry} {f' : Frame}
    {octets : Octets} (h : (run (policed p σ) (.start first hooks) events).journal =
      before ++ .wrote .toBroker f' octets :: after) :
    ∃ f packet, Forwards (run (policed p σ) (.start first hooks) events).journal before f packet := by
  obtain ⟨f, hlast, hintact, hreplaces, hwire⟩ := (run_replaced p first hooks events).2 _ _ _ h rfl
  obtain ⟨packet, htake, -⟩ := hreplaces.applies hintact hwire
  exact ⟨f, packet, f', octets, after, h, hlast, htake⟩

/-- Nothing but the connection keeps a pump that is about to read an UNSUBSCRIBE from writing it. -/
theorem run_unsubscribe (hi : g.interceptor = none) (hreading : s.phase .toBroker = .reading)
    (hstopped : s.stopped = false) (hopen : (s.sink .toBroker).outlet.broken = none)
    {u : Unsubscribe} {octets rest : Octets} (htake : (s.source .toBroker).inlet.take =
      .frame ⟨.unsubscribe u, some octets⟩ rest) :
    ((run g s (List.replicate 6 (.pump .toBroker))).sink .toBroker).outlet.written =
      (s.sink .toBroker).outlet.written ++ octets := by
  have hsink (link : Link) : ((s.setSource .toBroker link).source .toClient) = s.source .toClient :=
    State.setSource_source_of_ne _ _ _ nofun
  rw [State.sink, Direction.opposite] at hopen
  simp [run, step, pump, List.replicate, hreading, read, hstopped, htake, look, authorize,
    intercept, hi, write, writeFrame, Frame.wire, Outlet.write, hopen, State.sink, State.setSink,
    Direction.opposite, hsink, bind, Except.bind, pure, Except.pure]

/-- In place of a SUBSCRIBE the broker reads one to what the policy has made of its filters, and in
place of an UNSUBSCRIBE that with the client's own filters. So an UNSUBSCRIBE with the filters of a
SUBSCRIBE reaches the broker, but it names there what was subscribed to exactly if the policy has
left each of the filters as it was. -/
theorem unsubscribes_subscribed_iff_left (p : Policy) (first : Session) (hooks : σ)
    (events : List Event) :
    let s := run (policed p σ) (.start first hooks) events
    (∃ last, (s.sink .toBroker).outlet.written =
      (forwarded .toBroker s.journal).flatMap (·.2) ++ last ∧ (last = [] ∨ last = farewell)) ∧
    (∀ before f' octets after, s.journal = before ++ .wrote .toBroker f' octets :: after →
      ∃ f packet, Forwards s.journal before f packet) ∧
    (∀ u octets rest, s.phase .toBroker = .reading → s.stopped = false →
      (s.sink .toBroker).outlet.broken = none →
      (s.source .toBroker).inlet.take = .frame ⟨.unsubscribe u, some octets⟩ rest →
      ((run (policed p σ) s (List.replicate 6 (.pump .toBroker))).sink .toBroker).outlet.written =
        (s.sink .toBroker).outlet.written ++ octets) ∧
    ∀ before q received packet, Forwards s.journal before ⟨.subscribe q, received⟩ packet →
      ∃ q', packet = .subscribe q' ∧
        p.authorizeSubscribe (sessionAfter first before) q.filters = .ok q'.filters ∧
        ∀ later u received' packet',
          Forwards s.journal later ⟨.unsubscribe u, received'⟩ packet' →
          packet' = .unsubscribe u ∧ (u.filters = q.filters →
            (u.filters = q'.filters ↔
              ∀ filter ∈ q.filters, p.Leaves (sessionAfter first before) filter)) := by
  intro s
  refine ⟨run_sent_toBroker _ first hooks events, fun _ _ _ _ => exists_forwards, ?_, ?_⟩
  · exact fun u octets rest hreading hstopped hopen => run_unsubscribe rfl hreading hstopped hopen
  · intro before q received packet hsubscribe
    obtain ⟨q', rfl, haccepted⟩ := hsubscribe.applies.subscribe q rfl
    refine ⟨q', rfl, haccepted, fun later u received' packet' hunsubscribe => ?_⟩
    refine ⟨hunsubscribe.applies.unsubscribe u rfl, fun hfilters => ?_⟩
    rw [hfilters]
    exact Policy.accepted_eq_iff haccepted

/-- The client connects, subscribes to `t` and unsubscribes from it. -/
def comingAndGoing : List Event :=
  .peer .toBroker (.arrive ([0x10, 0x0D, 0x00, 0x04, 0x4D, 0x51, 0x54, 0x54, 0x04, 0x02, 0x00, 0x3C,
    0x00, 0x01, 0x64] ++ [0x82, 0x06, 0x00, 0x01, 0x00, 0x01, 0x74, 0x00] ++
    [0xA2, 0x05, 0x00, 0x02, 0x00, 0x01, 0x74])) :: List.replicate 26 (.pump .toBroker)

/-- The broker subscribes the client to `u/t` and then unsubscribes it from `t`. -/
theorem unsubscribes_outside_u :
    let s := run (policed belowU Unit) (.start {} ()) comingAndGoing
    ((taken .toBroker s.journal).drop 1).map (·.packet) =
      [.subscribe ⟨1, [⟨"t", 0⟩]⟩, .unsubscribe ⟨2, ["t"]⟩] ∧
    (forwarded .toBroker s.journal).drop 1 =
      [(⟨.subscribe ⟨1, [⟨"u/t", 0⟩]⟩, none⟩,
          [0x82, 0x08, 0x00, 0x01, 0x00, 0x03, 0x75, 0x2F, 0x74, 0x00]),
        (⟨.unsubscribe ⟨2, ["t"]⟩, some [0xA2, 0x05, 0x00, 0x02, 0x00, 0x01, 0x74]⟩,
          [0xA2, 0x05, 0x00, 0x02, 0x00, 0x01, 0x74])] ∧
    (Packet.decode [0x82, 0x08, 0x00, 0x01, 0x00, 0x03, 0x75, 0x2F, 0x74, 0x00]).toOption =
      some (.subscribe ⟨1, [⟨"u/t", 0⟩]⟩) ∧
    (Packet.decode [0xA2, 0x05, 0x00, 0x02, 0x00, 0x01, 0x74]).toOption =
      some (.unsubscribe ⟨2, ["t"]⟩) := by
  decide +kernel

end Relay
end MqttGateway
