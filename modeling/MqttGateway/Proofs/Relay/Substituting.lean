import MqttGateway.Proofs.Relay.Sending
import MqttGateway.Proofs.Relay.Unsubscribing
/-!
# What an answer changes

Main statement: without an interceptor the broker reads a PUBLISH with the topic and the payload
that were answered for the client's and a SUBSCRIBE to the filters that were answered, and all else
in them is the client's own. If what was answered cannot be written the pump ends, and an answer
without filters is refused.
-/
namespace MqttGateway

/-! ## The packets that go on -/

/-- `q'` subscribes to `filters` in place of the filters of `q`, in that order, each with the
service level that `q` asks for at its position. Beyond those it is the level asked for last, and 0
if there is none. -/
structure Subscribe.Substitutes (q : Subscribe) (filters : List String) (q' : Subscribe) :
    Prop where
  packetId : q'.packetId = q.packetId
  filters : q'.filters = filters
  asked : ∀ (i : Nat) (a b : Subscription), q'.subscriptions[i]? = some a →
    q.subscriptions[i]? = some b → a.qos = b.qos
  beyond : ∀ (i : Nat) (a b : Subscription), q'.subscriptions[i]? = some a →
    q.subscriptions.length ≤ i → q.subscriptions.getLast? = some b → a.qos = b.qos
  unasked : q.subscriptions = [] → ∀ a ∈ q'.subscriptions, a.qos = 0

namespace Subscribe

variable {q : Subscribe} {filters : List String}

theorem getElem?_withFilters {i : Nat} {a : Subscription}
    (h : (q.withFilters filters).subscriptions[i]? = some a) :
    a.qos = (q.subscriptions[i]?.map (·.qos)).getD q.lastQos := by
  simp only [withFilters, List.getElem?_mapIdx, Option.map_eq_some_iff] at h
  obtain ⟨filter, -, rfl⟩ := h
  rfl

theorem withFilters_substitutes (q : Subscribe) (filters : List String) :
    q.Substitutes filters (q.withFilters filters) := by
  refine ⟨rfl, q.filters_withFilters filters, ?_, ?_, ?_⟩
  · intro i a b ha hb
    rw [getElem?_withFilters ha, hb]
    rfl
  · intro i a b ha hi hb
    rw [getElem?_withFilters ha, List.getElem?_eq_none hi, lastQos, hb]
    rfl
  · intro hnone a ha
    obtain ⟨i, hi⟩ := List.getElem?_of_mem ha
    rw [getElem?_withFilters hi, lastQos, hnone]
    rfl

/-- The filters that are there keep their places and their service levels. -/
theorem withFilters_self (q : Subscribe) : q.withFilters q.filters = q := by
  obtain ⟨packetId, subscriptions⟩ := q
  simp only [withFilters, Subscribe.filters, mk.injEq, true_and]
  refine List.ext_getElem? fun i => ?_
  rw [List.getElem?_mapIdx, List.getElem?_map]
  cases subscriptions[i]? <;> rfl

end Subscribe

namespace Frame

variable {f : Frame}

theorem withPublication_packet {p : Publish} (hp : f.packet = .publish p) (content : Publication) :
    (f.withPublication p content).packet = .publish (p.withPublication content) := by
  unfold Frame.withPublication
  split
  case isTrue hsame =>
    rw [hp, hsame]
    rfl
  case isFalse => rfl

theorem withFilters_packet {q : Subscribe} (hq : f.packet = .subscribe q) (filters : List String) :
    (f.withFilters q filters).packet = .subscribe (q.withFilters filters) := by
  unfold Frame.withFilters
  split
  case isTrue hsame => rw [hq, hsame, q.withFilters_self]
  case isFalse => rfl

end Frame

/-- What the wire form tells of a PUBLISH does not depend on its topic and its payload. -/
theorem Publish.onWire_withPublication {p : Publish} (content : Publication)
    (h : (Packet.publish p).onWire = .publish p) :
    (Packet.publish (p.withPublication content)).onWire = .publish (p.withPublication content) := by
  have hid : (if p.qos = 0 then none else p.packetId) = p.packetId :=
    congrArg Publish.packetId (Packet.publish.inj h)
  show Packet.publish { p.withPublication content with
    packetId := if p.qos = 0 then none else p.packetId } = _
  rw [hid]
  rfl

namespace Relay

variable {σ : Type} {g : Gate σ} {s : State σ} {seen : Session} {f : Frame}

/-! ## What follows an answer -/

theorem pump_publish {p : Publish} {content : Publication}
    (hp : s.phase .toBroker = .authorizing (some seen) f) (hf : f.packet = .publish p)
    (hanswer : (g.handler.authorizePublish seen p.publication s.hooks).1 = .done content) :
    (pump g .toBroker s).phase .toBroker = .intercepting none (f.withPublication p content) ∧
      (pump g .toBroker s).sink .toBroker = s.sink .toBroker := by
  simp only [pump, hp, authorize, hf, authorizePublish, ask_phase, hanswer, Phase.ofReply,
    State.sink, ask_source, and_self]

theorem pump_subscribe {q : Subscribe} {filters : List String}
    (hp : s.phase .toBroker = .authorizing (some seen) f) (hf : f.packet = .subscribe q)
    (hanswer : (g.handler.authorizeSubscribe seen q.filters s.hooks).1 = .done filters) :
    (pump g .toBroker s).phase .toBroker =
        (if filters = [] then .ended (some (.unauthorized noTopics))
          else .intercepting none (f.withFilters q filters)) ∧
      (pump g .toBroker s).sink .toBroker = s.sink .toBroker := by
  simp only [pump, hp, authorize, hf, authorizeSubscribe, ask_phase, hanswer, Phase.ofReply,
    State.sink, ask_source, and_self]

theorem publish_sends (hi : g.interceptor = none) {p : Publish} {content : Publication}
    (hp : s.phase .toBroker = .authorizing (some seen) f) (hf : f.Intact)
    (hpacket : f.packet = .publish p)
    (hanswer : (g.handler.authorizePublish seen p.publication s.hooks).1 = .done content)
    {more : List Event} (hmore : more.count (.pump .toBroker) = 2) :
    Sends .toBroker s (run g s (.pump .toBroker :: more ++ [.pump .toBroker]))
      (.publish (p.withPublication content)) := by
  obtain ⟨hphase, hsink⟩ := pump_publish hp hpacket hanswer
  have hsame : (Packet.publish p).onWire = .publish p := by
    rw [← hpacket]
    exact hf.onWire (by rw [hpacket]; exact fun _ _ => nofun)
  refine answered_sends hi hmore hsink ?_ (hf.made_or_edit _ _)
    (Frame.withPublication_packet hpacket content) (fun _ _ => nofun)
    (Publish.onWire_withPublication content hsame)
  rw [hphase]
  exact .cleared

theorem subscribe_sends (hi : g.interceptor = none) {q : Subscribe} {filters : List String}
    (hp : s.phase .toBroker = .authorizing (some seen) f) (hf : f.Intact)
    (hpacket : f.packet = .subscribe q)
    (hanswer : (g.handler.authorizeSubscribe seen q.filters s.hooks).1 = .done filters)
    (hsome : filters ≠ []) {more : List Event} (hmore : more.count (.pump .toBroker) = 2) :
    Sends .toBroker s (run g s (.pump .toBroker :: more ++ [.pump .toBroker]))
      (.subscribe (q.withFilters filters)) := by
  obtain ⟨hphase, hsink⟩ := pump_subscribe hp hpacket hanswer
  refine answered_sends hi hmore hsink ?_ (hf.made_or_edit _ _)
    (Frame.withFilters_packet hpacket filters) (fun _ _ => nofun) rfl
  rw [hphase, if_neg hsome]
  exact .cleared

/-- An answer without filters ends the pump, and it writes nothing more. -/
theorem subscribe_refused {q : Subscribe}
    (hp : s.phase .toBroker = .authorizing (some seen) f) (hpacket : f.packet = .subscribe q)
    (hanswer : (g.handler.authorizeSubscribe seen q.filters s.hooks).1 = .done [])
    (more : List Event) :
    (run g s (.pump .toBroker :: more)).phase .toBroker = .ended (some (.unauthorized noTopics)) ∧
      forwarded .toBroker (run g s (.pump .toBroker :: more)).journal =
        forwarded .toBroker s.journal := by
  obtain ⟨hphase, -⟩ := pump_subscribe hp hpacket hanswer
  rw [if_pos rfl] at hphase
  have hover : ((pump g .toBroker s).phase .toBroker).isOver = true := by
    rw [hphase]
    rfl
  have hjournal : forwarded .toBroker (pump g .toBroker s).journal =
      forwarded .toBroker s.journal := by
    simp [pump, hp, authorize, hpacket, authorizeSubscribe, forwarded]
  rw [run, List.foldl_cons, ← run]
  obtain ⟨k, hk, hsilent⟩ := run_elsewhere (g := g) hover more
  refine ⟨(run_over g more hover).trans hphase, ?_⟩
  show forwarded .toBroker (run g (pump g .toBroker s) more).journal = _
  rw [hk, forwarded_append, hsilent.forwarded, List.append_nil, hjournal]

/-- The pump to the broker is about to ask about a frame. However the steps of the relay follow each
other, if nobody intercepts: for a PUBLISH that is answered with a topic and a payload the pump
sends one with these and with the service level, the flags and the packet id of the client's. For a
SUBSCRIBE that is answered with filters it sends one to these under the client's packet id, each
with the service level asked for at its position. An answer without filters ends the pump, and it
never writes again. -/
theorem sends_what_was_answered (g : Gate σ) (first : Session) (hooks : σ) (events : List Event)
    (seen : Session) (f : Frame)
    (hp : (run g (.start first hooks) events).phase .toBroker = .authorizing (some seen) f) :
    let s := run g (.start first hooks) events
    (taken .toBroker s.journal).getLast? = some f ∧ f.Intact ∧
    (∀ p content, f.packet = .publish p →
      (g.handler.authorizePublish seen p.publication s.hooks).1 = .done content →
      g.interceptor = none → ∀ more, more.count (.pump .toBroker) = 2 →
        Sends .toBroker s (run g s (.pump .toBroker :: more ++ [.pump .toBroker]))
          (.publish { p with topic := content.topic, payload := content.payload })) ∧
    ∀ q filters, f.packet = .subscribe q →
      (g.handler.authorizeSubscribe seen q.filters s.hooks).1 = .done filters →
      (filters ≠ [] → q.Substitutes filters (q.withFilters filters) ∧
        (g.interceptor = none → ∀ more, more.count (.pump .toBroker) = 2 →
          Sends .toBroker s (run g s (.pump .toBroker :: more ++ [.pump .toBroker]))
            (.subscribe (q.withFilters filters)))) ∧
      (filters = [] → ∀ more, let t := run g s (.pump .toBroker :: more)
        t.phase .toBroker = .ended (some (.unauthorized noTopics)) ∧
        forwarded .toBroker t.journal = forwarded .toBroker s.journal) := by
  intro s
  obtain ⟨hlast, hintact⟩ := run_in_hand g first hooks events hp
  refine ⟨hlast, hintact, ?_, ?_⟩
  · intro p content hpacket hanswer hi more hmore
    exact publish_sends hi hp hintact hpacket hanswer hmore
  · intro q filters hpacket hanswer
    constructor
    · intro hsome
      refine ⟨q.withFilters_substitutes filters, fun hi more hmore => ?_⟩
      exact subscribe_sends hi hp hintact hpacket hanswer hsome hmore
    · rintro rfl more
      exact subscribe_refused hp hpacket hanswer more

def triplicate : Gate Unit :=
  ⟨{ Policy.handler {} Unit with authorizeSubscribe := fun _ _ s => (.done ["x", "y", "z"], s) },
    none⟩

/-- A SUBSCRIBE to `a` at service level 1 and to `b` at level 0. -/
def subscribeTwo : Octets :=
  [0x82, 0x0A, 0x00, 0x01, 0x00, 0x01, 0x61, 0x01, 0x00, 0x01, 0x62, 0x00]

def subscribingTwo : List Event :=
  [.peer .toBroker (.arrive subscribeTwo), .pump .toBroker, .pump .toBroker]

/-- The broker reads of three filters, the third at the level of the second. -/
theorem sends_three_filters :
    let s := run triplicate (.start {} ()) subscribingTwo
    let t := run triplicate s (List.replicate 4 (.pump .toBroker))
    Packet.decode (t.sink .toBroker).outlet.written =
      .ok (.subscribe ⟨1, [⟨"x", 1⟩, ⟨"y", 0⟩, ⟨"z", 0⟩]⟩) := by
  intro s t
  let q : Subscribe := ⟨1, [⟨"a", 1⟩, ⟨"b", 0⟩]⟩
  have hp : s.phase .toBroker = .authorizing (some {}) ⟨.subscribe q, some subscribeTwo⟩ := by
    decide +kernel
  obtain ⟨-, -, -, hsubscribe⟩ := sends_what_was_answered triplicate {} () subscribingTwo {} _ hp
  obtain ⟨-, hsends⟩ := (hsubscribe q ["x", "y", "z"] rfl rfl).1 (by decide)
  have hsent := hsends rfl (List.replicate 2 (.pump .toBroker)) (by decide)
  have hencode : (Packet.subscribe (q.withFilters ["x", "y", "z"])).encode =
      .ok [0x82, 0x0E, 0x00, 0x01, 0x00, 0x01, 0x78, 0x01, 0x00, 0x01, 0x79, 0x00, 0x00, 0x01,
        0x7A, 0x00] := by
    decide +kernel
  obtain ⟨sent, hwritten, htake⟩ := hsent.written _ hencode (by decide +kernel)
  obtain ⟨_, -, -, hreceived, hdecode⟩ := Inlet.take_eq_frame_iff.mp (htake [] .open)
  cases hreceived
  have hnothing : (s.sink .toBroker).outlet.written = [] := by decide +kernel
  rw [hnothing, List.nil_append] at hwritten
  show Packet.decode ((run triplicate s (.pump .toBroker :: List.replicate 2 (.pump .toBroker) ++
    [.pump .toBroker])).sink .toBroker).outlet.written = _
  rw [hwritten]
  exact hdecode

end Relay
end MqttGateway
