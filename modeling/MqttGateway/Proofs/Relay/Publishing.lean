import MqttGateway.Proofs.Frame.Editing
import MqttGateway.Proofs.Relay.Policing
/-!
# What the broker is asked to publish

Main statement: under a policy and without an interceptor the broker is asked by a PUBLISH only for
what the policy has made of the client's own PUBLISH in its session. The last will of a CONNECT is
the client's own: the policy is not asked about it.
-/
namespace MqttGateway

/-- The topics to which the broker is asked to publish in the name of whoever sends a packet. -/
def Packet.publishedTopics : Packet → List String
  | .publish p => [p.topic]
  | .connect c => (c.will.map (·.topic)).toList
  | _ => []

def Policy.Permits (p : Policy) (s : Session) (topic : String) : Prop :=
  ∃ content sent, p.authorizePublish s content = .ok sent ∧ sent.topic = topic

namespace Relay

variable {σ : Type} {s t : State σ} {first : Session} {p : Policy}

/-! ## What the broker reads -/

structure Follows (p : Policy) (session : Session) (f : Frame) (packet : Packet) : Prop where
  publish : ∀ q, packet = .publish q → ∃ asked, f.packet = .publish asked ∧
    p.authorizePublish session asked.publication = .ok q.publication
  connect : ∀ c, packet = .connect c → f.packet = .connect c

/-- A frame that goes on as it came is read as it was. -/
theorem Follows.untouched {session : Session} {f : Frame} {octets : Octets} (hf : f.Intact)
    (hwire : f.wire = .ok octets) (hpublish : ∀ q, f.packet = .publish q →
      p.authorizePublish session q.publication = .ok q.publication) :
    ∃ packet, (∀ more ending, Inlet.take ⟨octets ++ more, ending⟩ =
      .frame ⟨packet, some octets⟩ more) ∧ Follows p session f packet := by
  exact ⟨f.packet, hf.take_wire hwire, fun q hq => ⟨q, hq, hpublish q hq⟩, fun _ hc => hc⟩

theorem Replaces.reads {session : Session} {f f' : Frame} {octets : Octets}
    (h : Replaces p session f f') (hf : f.Intact) (hwire : f'.wire = .ok octets) :
    ∃ packet, (∀ more ending, Inlet.take ⟨octets ++ more, ending⟩ =
      .frame ⟨packet, some octets⟩ more) ∧ Follows p session f packet := by
  cases h with
  | same hne _ => exact Follows.untouched hf hwire fun q hq => absurd hq (hne q)
  | @publication q content hq hcontent =>
    unfold Frame.withPublication at hwire
    split at hwire
    case isTrue hsame =>
      refine Follows.untouched hf hwire fun q' hq' => ?_
      cases hq.symm.trans hq'
      rw [hcontent, hsame]
    case isFalse =>
      obtain ⟨id, -, hframe, hdecode⟩ := Packet.decode_publish ((Frame.wire_eq_ok_iff rfl).mp hwire)
      refine ⟨_, Packet.take_frame hframe hdecode, ?_, nofun⟩
      rintro _ ⟨⟩
      exact ⟨q, hq, hcontent⟩
  | @filters q fs hq _ =>
    unfold Frame.withFilters at hwire
    split at hwire
    case isTrue hsame => exact Follows.untouched hf hwire fun q' hq' => nomatch hq.symm.trans hq'
    case isFalse =>
      obtain ⟨hframe, hdecode⟩ := Packet.decode_subscribe ((Frame.wire_eq_ok_iff rfl).mp hwire)
      exact ⟨_, Packet.take_frame hframe hdecode, nofun, nofun⟩

/-- The broker is asked for nothing that the policy does not permit, last wills apart. -/
theorem Follows.permits_iff {session : Session} {f : Frame} {packet : Packet}
    (h : Follows p session f packet) :
    (∀ topic ∈ packet.publishedTopics, p.Permits session topic) ↔
      ∀ c w, packet = .connect c → c.will = some w → p.Permits session w.topic := by
  constructor
  · rintro hall c w rfl hw
    exact hall w.topic (by simp [Packet.publishedTopics, hw])
  · intro hwills topic htopic
    cases packet with
    | publish q =>
      obtain ⟨asked, -, hasked⟩ := h.publish q rfl
      exact ⟨asked.publication, q.publication, hasked, (List.mem_singleton.mp htopic).symm⟩
    | connect c =>
      cases hw : c.will with
      | none => simp [Packet.publishedTopics, hw] at htopic
      | some w =>
        simp only [Packet.publishedTopics, hw, Option.map_some, Option.toList_some,
          List.mem_singleton] at htopic
        exact htopic ▸ hwills c w rfl hw
    | _ => cases htopic

/-! ## Runs -/

def Lawful (p : Policy) (first : Session) (j : List Entry) : Entry → Prop
  | .wrote d _ octets => d = .toBroker → ∃ f packet, (taken .toBroker j).getLast? = some f ∧
      (∀ more ending, Inlet.take ⟨octets ++ more, ending⟩ = .frame ⟨packet, some octets⟩ more) ∧
      Follows p (sessionAfter first j) f packet
  | _ => True

theorem Replaced.lawful {j : List Entry} {e : Entry} (h : Replaced p first j e) :
    Lawful p first j e := by
  cases e with
  | wrote c f' octets =>
    intro hd
    obtain ⟨f, hlast, hintact, hreplaces, hwire⟩ := h hd
    obtain ⟨packet, htake, hfollows⟩ := hreplaces.reads hintact hwire
    exact ⟨f, packet, hlast, htake, hfollows⟩
  | _ => trivial

theorem run_policed (p : Policy) (first : Session) (hooks : σ) (events : List Event) :
    Policed p first (run (policed p σ) (.start first hooks) events) ∧
      Orderly (Lawful p first) (run (policed p σ) (.start first hooks) events).journal :=
  (run_replaced p first hooks events).imp_right fun hj _ _ _ hsplit => (hj _ _ _ hsplit).lawful

/-- Whatever a relay writes to the broker under a policy is read there as one packet after another.
Each PUBLISH is what the policy has made of the client's PUBLISH for the session at that moment, and
each CONNECT is the client's own. So the broker is asked to publish only under permitted topics
exactly if the last wills are under such topics. -/
theorem publishes_permitted_iff_wills (p : Policy) (first : Session) (hooks : σ)
    (events : List Event) :
    let s := run (policed p σ) (.start first hooks) events
    (∃ last, (s.sink .toBroker).outlet.written =
      (forwarded .toBroker s.journal).flatMap (·.2) ++ last ∧ (last = [] ∨ last = farewell)) ∧
    ∀ before f' octets after, s.journal = before ++ .wrote .toBroker f' octets :: after →
      ∃ f packet, (taken .toBroker before).getLast? = some f ∧
        (∀ more ending, Inlet.take ⟨octets ++ more, ending⟩ = .frame ⟨packet, some octets⟩ more) ∧
        (∀ q, packet = .publish q → ∃ asked, f.packet = .publish asked ∧
          p.authorizePublish (sessionAfter first before) asked.publication = .ok q.publication) ∧
        (∀ c, packet = .connect c → f.packet = .connect c) ∧
        ((∀ topic ∈ packet.publishedTopics, p.Permits (sessionAfter first before) topic) ↔
          ∀ c w, packet = .connect c → c.will = some w →
            p.Permits (sessionAfter first before) w.topic) := by
  intro s
  constructor
  · obtain ⟨last, hwritten, hlast⟩ := (run_ends (policed p σ) first hooks events).written
      (run_wrote (policed p σ) first hooks events) .toBroker
    exact ⟨last, hwritten, hlast.imp_right fun h => h.2.1⟩
  · intro before f' octets after hj
    obtain ⟨f, packet, hlast, htake, hfollows⟩ := (run_policed p first hooks events).2 _ _ _ hj rfl
    exact ⟨f, packet, hlast, htake, hfollows.publish, hfollows.connect, hfollows.permits_iff⟩

def belowU : Policy :=
  ⟨{}, some ⟨"u"⟩⟩

def publishing : List Event :=
  .peer .toBroker (.arrive [0x30, 0x03, 0x00, 0x01, 0x74]) :: List.replicate 6 (.pump .toBroker)

theorem publishes_below_u :
    let s := run (policed belowU Unit) (.start {} ()) publishing
    ∃ before after f' octets packet,
      s.journal = before ++ .wrote .toBroker f' octets :: after ∧
      Inlet.take ⟨octets ++ [], .open⟩ = .frame ⟨packet, some octets⟩ [] ∧
      packet.publishedTopics = ["u/t"] ∧
      ∀ topic ∈ packet.publishedTopics, belowU.Permits (sessionAfter {} before) topic := by
  intro s
  have hforwarded : forwarded .toBroker s.journal =
      [(⟨.publish ⟨"u/t", [], 0, false, false, none⟩, none⟩,
        [0x30, 0x05, 0x00, 0x03, 0x75, 0x2F, 0x74])] := by
    decide +kernel
  obtain ⟨before, after, hj⟩ := List.append_of_mem (mem_forwarded (hforwarded ▸ List.mem_cons_self))
  obtain ⟨f, packet, -, htake, -, -, hiff⟩ :=
    (publishes_permitted_iff_wills belowU {} () publishing).2 _ _ _ _ hj
  have hencode : Packet.encode (.publish ⟨"u/t", [], 0, false, false, none⟩) =
      .ok [0x30, 0x05, 0x00, 0x03, 0x75, 0x2F, 0x74] :=
    Packet.encode_publish_iff.mpr ⟨none, rfl, by decide, ⟨by decide +kernel, by decide⟩⟩
  obtain ⟨id, -, hframe, hdecode⟩ := Packet.decode_publish hencode
  have hread := (htake [] .open).symm.trans (Packet.take_frame hframe hdecode [] .open)
  obtain ⟨rfl⟩ : packet = .publish ⟨"u/t", [], 0, false, false, id⟩ := by
    injection hread with hf
    injection hf
  refine ⟨before, after, _, _, _, hj, htake [] .open, rfl, hiff.mpr ?_⟩
  intro c w hc
  cases hc

/-- The client connects with a last will to `t`. -/
def connectWithWill : Octets :=
  [0x10, 0x13, 0x00, 0x04, 0x4D, 0x51, 0x54, 0x54, 0x04, 0x06, 0x00, 0x3C, 0x00, 0x01, 0x64,
    0x00, 0x01, 0x74, 0x00, 0x01, 0x78]

def connecting : List Event :=
  .peer .toBroker (.arrive connectWithWill) :: List.replicate 7 (.pump .toBroker)

def closed : Policy :=
  ⟨{ enabled := true, defaultVerdict := .deny }, none⟩

theorem closed_permits_nothing (s : Session) (topic : String) : ¬ closed.Permits s topic := by
  rintro ⟨content, sent, h, -⟩
  unfold Policy.authorizePublish at h
  split at h
  · cases h
  · cases h

theorem root_u (username clientId : String) :
    (Scope.mk "u").root username clientId = ['u', '/'] := by
  have huser : Scope.userPlaceholder.isPrefixOf ['u'] = false := by decide +kernel
  have hclient : Scope.clientPlaceholder.isPrefixOf ['u'] = false := by decide +kernel
  have hfill : (Scope.mk "u").fill username clientId = ['u'] := by
    rw [Scope.fill, show "u".toList = ['u'] from rfl]
    simp [substitute, huser, hclient]
  simp [Scope.root, hfill]

theorem belowU_moves (s : Session) : ¬ belowU.Permits s "t" := by
  rintro ⟨content, sent, h, ht⟩
  unfold Policy.authorizePublish at h
  split at h
  case isFalse => cases h
  case isTrue =>
    cases h
    have hforwarded : (belowU.localize s content.topic).forwarded = "t" := ht
    simp only [Policy.localize, belowU, Scope.strip?, Scope.apply, root_u] at hforwarded
    split at hforwarded
    case h_1 inner hinner =>
      have htopic : content.topic = "t" := hforwarded
      rw [htopic, show remainder? ['u', '/'] "t".toList = none from rfl] at hinner
      cases hinner
    case h_2 =>
      have hlist := congrArg String.toList hforwarded
      rw [String.toList_ofList, show "t".toList = ['t'] from rfl] at hlist
      cases hlist

/-- A last will goes to the broker as it is, be its topic denied or outside the scope. -/
theorem wills_go_unasked :
    (Packet.decode connectWithWill).toOption =
      some (.connect ⟨4, "d", true, 60, none, none, some ⟨"t", [0x78], 0, false⟩⟩) ∧
    (let s := run (policed closed Unit) (.start {} ()) connecting
     (s.sink .toBroker).outlet.written = connectWithWill ∧ ¬ closed.Permits s.session "t") ∧
    (let s := run (policed belowU Unit) (.start {} ()) connecting
     (s.sink .toBroker).outlet.written = connectWithWill ∧ ¬ belowU.Permits s.session "t") :=
  ⟨by decide +kernel, ⟨by decide +kernel, closed_permits_nothing _ _⟩, by decide +kernel,
    belowU_moves _⟩

end Relay
end MqttGateway
