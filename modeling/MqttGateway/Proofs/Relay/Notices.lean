import MqttGateway.Proofs.Frame.Editing
import MqttGateway.Proofs.Relay.Stages
/-!
# Notices

The hooks are told of every packet of a certain kind that has gone to the broker. Which notices have
been given can be read off the calls in a journal, and which are due off the octets that were
written. A turn of the pump to the broker keeps the two in step, for frames that are read where they
arrive as the packets which the pump took them for.
-/
namespace MqttGateway

inductive Notice
  | connected
  | published (content : Publication)
  | subscribed (filters : List String)
  | unsubscribed (filters : List String)
  deriving DecidableEq, Repr

def Packet.notice? : Packet → Option Notice
  | .connect _ => some .connected
  | .publish p => some (.published p.publication)
  | .subscribe p => some (.subscribed p.filters)
  | .unsubscribe p => some (.unsubscribed p.filters)
  | _ => none

/-- What the wire form does not carry makes no difference to a notice. -/
theorem Packet.notice?_onWire (p : Packet) : p.onWire.notice? = p.notice? := by
  cases p <;> rfl

def noticeFor (octets : Octets) : Option Notice :=
  (Packet.decode octets).toOption.bind Packet.notice?

theorem noticeFor_of_decode {octets : Octets} {p : Packet} (h : Packet.decode octets = .ok p) :
    noticeFor octets = p.notice? := by
  rw [noticeFor, h]
  rfl

/-! ## Frames that are what they are taken for -/

namespace Frame

/-- A packet of the frame that is not taken apart is what its octets are read as. -/
structure Genuine (f : Frame) : Prop where
  made : f.Made
  raw : ∀ kind raw, f.packet = .other kind raw → Packet.decode raw = .ok f.packet

theorem Genuine.of_take {inlet : Inlet} {f : Frame} {rest : Octets}
    (h : inlet.take = .frame f rest) : f.Genuine := by
  refine ⟨.taken h, fun kind raw hp => ?_⟩
  obtain ⟨octets, -, -, -, hdecode⟩ := Inlet.take_eq_frame_iff.mp h
  rw [hp] at hdecode
  rw [hp, Packet.eq_of_decode_other hdecode, hdecode, Packet.eq_of_decode_other hdecode]

theorem Genuine.edit {f : Frame} {change : Packet → Packet} (h : f.Genuine)
    (hne : ∀ kind raw, change f.packet ≠ .other kind raw) : (f.edit change).Genuine :=
  ⟨h.made.edit change, fun kind raw hp => absurd hp (hne kind raw)⟩

theorem Genuine.withIdentity {f : Frame} (h : f.Genuine) (c : Connect) (s t : Session) :
    (f.withIdentity c s t).Genuine := by
  unfold Frame.withIdentity
  split
  · exact h
  · exact h.edit fun _ _ => nofun

theorem Genuine.withPublication {f : Frame} (h : f.Genuine) (p : Publish) (content : Publication) :
    (f.withPublication p content).Genuine := by
  unfold Frame.withPublication
  split
  · exact h
  · exact h.edit fun _ _ => nofun

theorem Genuine.withFilters {f : Frame} (h : f.Genuine) (p : Subscribe) (filters : List String) :
    (f.withFilters p filters).Genuine := by
  unfold Frame.withFilters
  split
  · exact h
  · exact h.edit fun _ _ => nofun

/-- The notice due for the octets of a genuine frame is the one that its packet gives rise to. -/
theorem Genuine.noticeFor {f : Frame} {octets : Octets} (h : f.Genuine)
    (hwire : f.wire = .ok octets) : noticeFor octets = f.packet.notice? := by
  rcases made_iff.mp h.made with hnone | hintact
  · rw [wire_eq_ok_iff hnone] at hwire
    -- a packet that is not taken apart has no wire form of its own, so it is read as it was
    by_cases hp : ∃ kind raw, f.packet = .other kind raw
    · obtain ⟨kind, raw, hp⟩ := hp
      rw [hp] at hwire
      cases hwire
      exact noticeFor_of_decode (h.raw kind octets hp)
    · have hne (kind : PacketKind) (raw : Octets) : f.packet ≠ .other kind raw :=
        fun heq => hp ⟨kind, raw, heq⟩
      obtain ⟨head, body, hwritten⟩ := Packet.exists_writtenAs f.packet hne
      rw [noticeFor_of_decode (hwritten.decodes octets hwire), Packet.notice?_onWire]
  · exact noticeFor_of_decode (hintact.decode hwire).2

end Frame

/-- On the way to the broker the interceptor puts no octets of its own in the place of a packet: a
packet that is not taken apart goes on only if it is the one that the interceptor was given. -/
def Interceptor.AddsNothingRaw {σ : Type} (i : Interceptor σ) : Prop :=
  ∀ s f before f' after, f.Made → i s f .toBroker before = (.done f', after) →
    f'.Made ∧ ∀ kind raw, f'.packet = .other kind raw → f.packet = f'.packet

theorem Interceptor.AddsNothingRaw.genuine {σ : Type} {i : Interceptor σ} (hi : i.AddsNothingRaw)
    {s : Session} {f f' : Frame} {before after : σ}
    (h : i s f .toBroker before = (.done f', after)) (hf : f.Genuine) : f'.Genuine := by
  obtain ⟨hmade, hraw⟩ := hi s f before f' after hf.made h
  refine ⟨hmade, fun kind raw hp => ?_⟩
  have hsame := hraw kind raw hp
  rw [← hsame] at hp ⊢
  exact hf.raw kind raw hp

namespace Relay

variable {σ : Type} {g : Gate σ} {d : Direction}

/-! ## Notices in a journal -/

def Call.notice? : Call → Option (Notice × Reply Unit)
  | .connected _ reply => some (.connected, reply)
  | .published _ content reply => some (.published content, reply)
  | .subscribed _ filters reply => some (.subscribed filters, reply)
  | .unsubscribed _ filters reply => some (.unsubscribed filters, reply)
  | _ => none

def given (d : Direction) (j : List Entry) : List Notice :=
  (calls d j).filterMap fun call => call.notice?.map (·.1)

def due (j : List Entry) : List Notice :=
  (forwarded .toBroker j).filterMap fun (_, octets) => noticeFor octets

def Lost (j : List Entry) : Prop :=
  ∃ call ∈ calls .toBroker j, ∃ notice reply, call.notice? = some (notice, reply) ∧ reply ≠ .done ()

def own (d : Direction) (j : List Entry) : List Entry :=
  j.filter fun e => e.pump? = some d

theorem given_append (d : Direction) (j k : List Entry) :
    given d (j ++ k) = given d j ++ given d k := by
  simp only [given, calls, List.filterMap_append]

theorem due_append (j k : List Entry) : due (j ++ k) = due j ++ due k := by
  simp only [due, forwarded_append, List.filterMap_append]

theorem lost_append (j k : List Entry) : Lost (j ++ k) ↔ Lost j ∨ Lost k := by
  simp only [Lost, calls, List.filterMap_append, List.mem_append, or_and_right, exists_or]

theorem given_called (d : Direction) (call : Call) :
    given d [.called d call] = (call.notice?.map (·.1)).toList := by
  cases h : call.notice? <;> simp [given, calls, h]

theorem notice?_of_isGate {call : Call} (h : call.isGate = true) : call.notice? = none := by
  cases call <;> first | rfl | cases h

theorem Notifies.notice? {seen : Session} {p : Packet} {call : Call} {reply : Reply Unit}
    (h : Notifies seen p call reply) :
    ∃ notice, p.notice? = some notice ∧ call.notice? = some (notice, reply) := by
  cases h <;> exact ⟨_, rfl, rfl⟩

/-- A packet that nobody is told of gives rise to no notice. -/
theorem notice?_of_not_notifies {seen : Session} {p : Packet}
    (h : ∀ call reply, ¬ Notifies seen p call reply) : p.notice? = none := by
  cases p with
  | connect c => exact absurd (.connected c .crashed) (h _ _)
  | publish p => exact absurd (.published p .crashed) (h _ _)
  | subscribe p => exact absurd (.subscribed p .crashed) (h _ _)
  | unsubscribe p => exact absurd (.unsubscribed p .crashed) (h _ _)
  | _ => rfl

/-! ## What a turn does to them -/

def Phase.frame? : Phase → Option Frame
  | .authorizing _ f => some f
  | .storing _ f => some f
  | .intercepting _ f => some f
  | .writing f => some f
  | .notifying _ f => some f
  | _ => none

def Phase.Genuine (p : Phase) : Prop :=
  ∀ f, p.frame? = some f → f.Genuine

def Phase.owed : Phase → Option Notice
  | .notifying _ f => f.packet.notice?
  | _ => none

/-- The last thing that the pump to the broker has done before it gives a notice is to write what
the notice is about, and then to look at the session. -/
def Phase.Trails (done : List Entry) : Phase → Prop
  | .notifying seen f => ∃ earlier octets,
      done = earlier ++ .wrote .toBroker f octets :: (seen.map (.looked .toBroker)).toList ∧
      noticeFor octets = f.packet.notice?
  | _ => True

/-- Only a pump that is about to give a notice gives one, and it goes on if the notice is taken. -/
theorem Turn.notified {connected : Bool} {p q : Phase} {call : Call} {notice : Notice}
    {reply : Reply Unit} (h : Turn g connected d p (some (.called d call)) q)
    (hcall : call.notice? = some (notice, reply)) : ∃ seen f, p = .notifying (some seen) f ∧
      Notifies seen f.packet call reply ∧ q = .ofReply .notify (fun _ => .reading) reply := by
  cases h with
  | authorize hauth _ =>
    rw [notice?_of_isGate hauth.isGate] at hcall
    cases hcall
  | intercept => cases hcall
  | @notify seen f _ reply' hnotifies =>
    obtain ⟨notice', -, hnotice⟩ := hnotifies.notice?
    rw [hnotice] at hcall
    cases hcall
    exact ⟨seen, f, rfl, hnotifies, rfl⟩

/-- A pump whose notice was not taken is over. -/
theorem Turn.lost {connected : Bool} {p q : Phase} {e : Option Entry}
    (h : Turn g connected .toBroker p e q) (hlost : Lost e.toList) : q.isOver = true := by
  obtain ⟨call, hcall, notice, reply, hnotice, hreply⟩ := hlost
  obtain ⟨a, ha, hmem⟩ := List.mem_filterMap.mp hcall
  obtain rfl := Option.mem_toList.mp ha
  cases a with
  | called c call' =>
    simp only [Option.ite_none_right_eq_some, Option.some.injEq] at hmem
    obtain ⟨rfl, rfl⟩ := hmem
    obtain ⟨-, -, -, -, rfl⟩ := h.notified hnotice
    cases reply with
    | done value => exact absurd rfl hreply
    | refused causes => rfl
    | crashed => rfl
  | _ => cases hmem

inductive Entry.Engages : Entry → Prop
  | took (f : Frame) : Engages (.took .toBroker f)
  | asked {call : Call} : call.isGate = true → Engages (.called .toBroker call)

/-- With a notice still to be given the pump neither takes a frame nor asks about one. -/
theorem Turn.owed_eq_none {connected : Bool} {p q : Phase} {e : Entry}
    (h : Turn g connected .toBroker p (some e) q) (he : e.Engages) : p.owed = none := by
  cases h with
  | lookToNotify => cases he
  | notify hnotifies =>
    cases he with
    | asked hgate =>
      rw [hnotifies.isGate] at hgate
      cases hgate
  | _ => rfl

/-- What is owed before a turn and what becomes due by it is given by it or owed after it. -/
theorem Turn.owed {connected : Bool} {p q : Phase} {e : Option Entry}
    (h : Turn g connected .toBroker p e q) (hp : p.Genuine) :
    p.owed.toList ++ due e.toList = given .toBroker e.toList ++ q.owed.toList := by
  cases h with
  | authorize hauth _ =>
    rw [Option.toList_some, given_called, notice?_of_isGate hauth.isGate]
    rcases hauth.leads with ⟨fault, rfl⟩ | rfl | ⟨session, f', rfl⟩ | ⟨f', rfl⟩ <;> rfl
  | intercept reply _ => cases reply <;> rfl
  | @write f octets hwire =>
    -- the one turn by which a notice becomes due
    show [] ++ due [.wrote .toBroker f octets] = [] ++ f.packet.notice?.toList
    rw [← (hp f rfl).noticeFor hwire]
    cases h : noticeFor octets <;> simp [due, forwarded, h]
  | @notify seen f call reply hnotifies =>
    obtain ⟨notice, hpacket, hcall⟩ := hnotifies.notice?
    rw [Option.toList_some, given_called, hcall]
    cases reply <;> simp [Phase.ofReply, Phase.owed, hpacket, due, forwarded]
  | untold hnone => simp [Phase.owed, notice?_of_not_notifies hnone, due, forwarded, given, calls]
  | lookToNotify seen f => simp [Phase.owed, due, forwarded, given, calls]
  | _ => rfl

/-- Only the writing of a frame to the broker, and then a look at the session, leads to a notice. -/
theorem Turn.of_notifying {connected : Bool} {p : Phase} {e : Option Entry}
    {seen : Option Session} {f : Frame} (h : Turn g connected d p e (.notifying seen f)) :
    (∃ octets, d = .toBroker ∧ seen = none ∧ p = .writing f ∧
      e = some (.wrote .toBroker f octets) ∧ f.wire = .ok octets) ∨
    ∃ session, seen = some session ∧ p = .notifying none f ∧ e = some (.looked d session) := by
  generalize hq : Phase.notifying seen f = q at h
  cases h with
  | authorize hauth _ =>
    rcases hauth.leads with ⟨fault, rfl⟩ | rfl | ⟨session, f', rfl⟩ | ⟨f', rfl⟩ <;> cases hq
  | intercept reply _ => cases reply <;> cases hq
  | @notify _ _ _ reply _ => cases reply <;> cases hq
  | write hwire =>
    cases d with
    | toBroker =>
      cases hq
      exact .inl ⟨_, rfl, rfl, rfl, rfl, hwire⟩
    | toClient => cases hq
  | lookToNotify session f =>
    cases hq
    exact .inr ⟨session, rfl, rfl, rfl⟩
  | _ => cases hq

/-- The pump to the broker gives a notice right after it has written what the notice is about. -/
theorem Turn.trails {connected : Bool} {p q : Phase} {e : Option Entry} {done : List Entry}
    (h : Turn g connected .toBroker p e q) (hp : p.Genuine) (hdone : p.Trails done) :
    q.Trails (done ++ e.toList) := by
  cases q with
  | notifying seen f =>
    rcases h.of_notifying with ⟨octets, -, rfl, rfl, rfl, hwire⟩ | ⟨session, rfl, rfl, rfl⟩
    · exact ⟨done, octets, rfl, (hp f rfl).noticeFor hwire⟩
    · obtain ⟨earlier, octets, rfl, hnotice⟩ := hdone
      exact ⟨earlier, octets, List.append_assoc .., hnotice⟩
  | _ => trivial

theorem genuine_ofReply {α : Type} {fault : Refusal → PumpFault} {next : α → Phase}
    {reply : Reply α} (h : ∀ a, reply = .done a → (next a).Genuine) :
    (Phase.ofReply fault next reply).Genuine := by
  cases reply with
  | done a => exact h a rfl
  | refused causes => exact fun _ => nofun
  | crashed => exact fun _ => nofun

theorem Authorizes.genuine {seen : Session} {f : Frame} {call : Call} {q : Phase}
    (h : Authorizes seen f d call q) (hf : f.Genuine) : q.Genuine := by
  cases h with
  | connect reply =>
    refine genuine_ofReply fun session _ => ?_
    rintro _ ⟨⟩
    exact hf.withIdentity _ _ session
  | publish reply =>
    refine genuine_ofReply fun content _ => ?_
    rintro _ ⟨⟩
    exact hf.withPublication _ content
  | subscribe reply =>
    refine genuine_ofReply fun filters _ => ?_
    split
    case isTrue => exact fun _ => nofun
    case isFalse =>
      rintro _ ⟨⟩
      exact hf.withFilters _ filters
  | delivery reply =>
    refine genuine_ofReply fun _ _ => ?_
    rintro _ ⟨⟩
    exact hf

/-- A frame stays what it is taken for unless the interceptor replaces it by octets of its own. -/
theorem Turn.genuine {connected : Bool} {p q : Phase} {e : Option Entry} {before after : σ}
    (h : Turn g connected .toBroker p e q)
    (hi : ∀ i, g.interceptor = some i → i.AddsNothingRaw)
    (htook : ∀ f, e = some (.took .toBroker f) → f.Genuine)
    (hcall : ∀ call, e = some (.called .toBroker call) → call.AnsweredBy g before after)
    (hp : p.Genuine) : q.Genuine := by
  cases h with
  | take f =>
    rintro _ ⟨⟩
    exact htook f rfl
  | authorize hauth _ => exact hauth.genuine (hp _ rfl)
  | @intercept seen f reply _ =>
    refine genuine_ofReply fun f' hdone => ?_
    obtain ⟨i, hsome, hanswer⟩ := hcall _ rfl
    rintro _ ⟨⟩
    rw [hdone] at hanswer
    exact (hi i hsome).genuine hanswer (hp f rfl)
  | notify => exact genuine_ofReply fun _ _ _ => nofun
  | write => exact hp
  | halt | overrun | again | unwritten | untold => exact fun _ => nofun
  | lookToAuthorize | pass | store | lookToIntercept | unseen | lookToNotify => exact hp

/-- Nobody is told of what goes to the client. -/
theorem Turn.quiet {connected : Bool} {p q : Phase} {e : Option Entry}
    (h : Turn g connected .toClient p e q) (hp : ∀ seen f, p ≠ .notifying seen f) :
    (∀ seen f, q ≠ .notifying seen f) ∧
      ∀ call, e = some (.called .toClient call) → call.notice? = none := by
  constructor
  · rintro seen f rfl
    rcases h.of_notifying with ⟨-, hd, -⟩ | ⟨-, -, hnotifying, -⟩
    · cases hd
    · exact hp none f hnotifying
  · rintro call rfl
    cases hcall : call.notice? with
    | none => rfl
    | some notice =>
      obtain ⟨seen, f, hnotifying, -⟩ := h.notified hcall
      exact absurd hnotifying (hp _ f)

end Relay
end MqttGateway
