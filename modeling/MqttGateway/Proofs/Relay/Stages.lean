import MqttGateway.Proofs.Relay.Sessions
/-!
# How far the session is fixed

The pump to the broker asks for at most one session and stores it at most once. A turn leads from
one stage of this to a later one, and no turn leads back.
-/
namespace MqttGateway.Relay

variable {σ : Type} {g : Gate σ} {d : Direction} {first : Session}

inductive Stage (first : Session) :
    Phase → Bool → List (Session × Reply Session) → List Session → Prop
  | fresh {p : Phase} : (∀ session f, p ≠ .storing session f) → Stage first p false [] []
  | granted (c : Connect) (session : Session) (f : Frame) :
      Stage first (.storing session f) false [(first.withConnect c, .done session)] []
  | failed {p : Phase} (c : Connect) (reply : Reply Session) : p.isOver = true →
      (∀ session, reply ≠ .done session) → Stage first p false [(first.withConnect c, reply)] []
  | fixed {p : Phase} (c : Connect) (session : Session) : (∀ session f, p ≠ .storing session f) →
      Stage first p true [(first.withConnect c, .done session)] [session]

/-- While no session is stored the phases of a pump that neither stores nor is over come before any
request, and afterwards there is exactly the one that was authorized. -/
theorem Stage.cases_of_running {p : Phase} {connected : Bool}
    {asked : List (Session × Reply Session)} {stored : List Session}
    (h : Stage first p connected asked stored) (hover : p.isOver = false)
    (hp : ∀ session f, p ≠ .storing session f) :
    connected = false ∧ asked = [] ∧ stored = [] ∨
    connected = true ∧ ∃ c session, asked = [(first.withConnect c, .done session)] ∧
      stored = [session] := by
  cases h with
  | fresh _ => exact .inl ⟨rfl, rfl, rfl⟩
  | granted c session f => exact absurd rfl (hp session f)
  | failed c reply hp' _ => rw [hover] at hp'; cases hp'
  | fixed c session _ => exact .inr ⟨rfl, c, session, rfl, rfl⟩

theorem Stage.of_phase {p q : Phase} {connected : Bool} {asked : List (Session × Reply Session)}
    {stored : List Session} (h : Stage first p connected asked stored) (hover : p.isOver = false)
    (hp : ∀ session f, p ≠ .storing session f) (hq : ∀ session f, q ≠ .storing session f) :
    Stage first q connected asked stored := by
  rcases h.cases_of_running hover hp with ⟨rfl, rfl, rfl⟩ | ⟨rfl, c, session, rfl, rfl⟩
  · exact .fresh hq
  · exact .fixed c session hq

/-- A session is about to be stored only after the one request that was answered by it. -/
theorem Stage.of_storing {session : Session} {f : Frame} {connected : Bool}
    {asked : List (Session × Reply Session)} {stored : List Session}
    (h : Stage first (.storing session f) connected asked stored) :
    stored = [] ∧ ∃ c, asked = [(first.withConnect c, .done session)] := by
  cases h with
  | fresh hp => exact absurd rfl (hp session f)
  | granted c _ _ => exact ⟨rfl, c, rfl⟩
  | failed _ _ hover _ => cases hover
  | fixed _ _ hp => exact absurd rfl (hp session f)

def Phase.seen? : Phase → Option Session
  | .authorizing seen _ => seen
  | .intercepting seen _ => seen
  | .notifying seen _ => seen
  | _ => none

def Phase.Refuses : Phase → Prop
  | .authorizing _ f => ∃ c, f.packet = .connect c
  | .ended fault => fault = some (.unauthorized secondConnect)
  | _ => False

theorem ofReply_ne_storing {α : Type} {fault : Refusal → PumpFault} {next : α → Phase}
    (reply : Reply α) (h : ∀ a session f, next a ≠ .storing session f) (session : Session)
    (f : Frame) : Phase.ofReply fault next reply ≠ .storing session f := by
  cases reply with
  | done a => exact h a session f
  | refused causes => nofun
  | crashed => nofun

/-- A call that authorizes anything but a CONNECT stores no session. -/
theorem Authorizes.ne_storing {seen : Session} {f : Frame} {call : Call} {q : Phase}
    (h : Authorizes seen f d call q) : (∀ session f, q ≠ .storing session f) ∧
      connects [.called d call] = [] ∨
    ∃ c reply, d = .toBroker ∧ f.packet = .connect c ∧
      call = .authorizeConnect (seen.withConnect c) reply ∧
      q = .ofReply .unauthorized (fun session =>
        .storing session (f.withIdentity c (seen.withConnect c) session)) reply := by
  cases h with
  | @connect c reply hf => exact .inr ⟨c, reply, rfl, hf, rfl, rfl⟩
  | publish reply hf =>
    exact .inl ⟨ofReply_ne_storing reply fun _ _ _ => nofun, rfl⟩
  | subscribe reply hf =>
    refine .inl ⟨ofReply_ne_storing reply fun filters _ _ => ?_, rfl⟩
    split <;> nofun
  | delivery reply hf =>
    exact .inl ⟨ofReply_ne_storing reply fun _ _ _ => nofun, rfl⟩

theorem Notifies.session {seen : Session} {p : Packet} {call : Call} {reply : Reply Unit}
    (h : Notifies seen p call reply) :
    (∀ asked reply, call ≠ .authorizeConnect asked reply) ∧ call.session = seen := by
  cases h <;> exact ⟨fun _ _ => nofun, rfl⟩

theorem Notifies.connects {seen : Session} {p : Packet} {call : Call} {reply : Reply Unit}
    (h : Notifies seen p call reply) : connects [.called d call] = [] := by
  cases h <;> rfl

/-- A turn of the pump to the broker fixes the session further or leaves it as fixed as it was. -/
theorem Turn.stage {connected : Bool} {p q : Phase} {e : Option Entry}
    {asked : List (Session × Reply Session)} {stored : List Session}
    (h : Turn g connected .toBroker p e q) (hs : Stage first p connected asked stored)
    (hseen : ∀ seen, p.seen? = some seen → stored = [] → seen = first) :
    Stage first q (connected || !(storedSessions e.toList).isEmpty)
      (asked ++ connects e.toList) (stored ++ storedSessions e.toList) := by
  have silent (hconnects : connects e.toList = []) (hstored : storedSessions e.toList = [])
      (hp : ∀ session f, p ≠ .storing session f) (hq : ∀ session f, q ≠ .storing session f) :
      Stage first q (connected || !(storedSessions e.toList).isEmpty)
        (asked ++ connects e.toList) (stored ++ storedSessions e.toList) := by
    rw [hconnects, hstored, List.append_nil, List.append_nil, List.isEmpty_nil, Bool.not_true,
      Bool.or_false]
    exact hs.of_phase h.not_over hp hq
  cases h with
  | store session f =>
    cases hs with
    | fresh hp => exact absurd rfl (hp session f)
    | granted c _ _ => exact .fixed c session fun _ _ => nofun
    | failed c reply hover _ => cases hover
    | fixed c session' hp => exact absurd rfl (hp session f)
  | @authorize seen f call _ hauth hconnected =>
    rcases hauth.ne_storing with ⟨hq, hconnects⟩ | ⟨c, reply, -, hf, rfl, rfl⟩
    · exact silent hconnects rfl (fun _ _ => nofun) hq
    · rcases hs.cases_of_running rfl fun _ _ => nofun with
        ⟨rfl, rfl, rfl⟩ | ⟨rfl, _, _, rfl, rfl⟩
      · obtain rfl := hseen seen rfl rfl
        cases reply with
        | done session => exact .granted c session _
        | refused causes => exact .failed c _ rfl fun _ => nofun
        | crashed => exact .failed c _ rfl fun _ => nofun
      · exact absurd rfl (hconnected rfl _ _)
  | intercept reply _ =>
    exact silent rfl rfl (fun _ _ => nofun)
      (ofReply_ne_storing reply fun _ _ _ => nofun)
  | @notify _ _ _ reply hnotifies =>
    exact silent hnotifies.connects rfl (fun _ _ => nofun)
      (ofReply_ne_storing reply fun _ _ _ => nofun)
  | _ => exact silent rfl rfl (fun _ _ => nofun) fun _ _ => nofun

/-- The pump to the client never stores a session. -/
theorem Turn.ne_storing {connected : Bool} {p q : Phase} {e : Option Entry}
    (h : Turn g connected .toClient p e q) (hp : ∀ session f, p ≠ .storing session f) :
    (∀ session f, q ≠ .storing session f) ∧ connects e.toList = [] ∧
      storedSessions e.toList = [] ∧ ∀ a ∈ e, a.pump? = some .toClient := by
  cases h with
  | store session f => exact absurd rfl (hp session f)
  | authorize hauth _ =>
    rcases hauth.ne_storing with ⟨hq, hconnects⟩ | ⟨_, _, hd, _⟩
    · exact ⟨hq, hconnects, rfl, by simp [Entry.pump?]⟩
    · cases hd
  | intercept reply _ =>
    exact ⟨ofReply_ne_storing reply fun _ _ _ => nofun, rfl, rfl, by simp [Entry.pump?]⟩
  | @notify _ _ _ reply hnotifies =>
    exact ⟨ofReply_ne_storing reply fun _ _ _ => nofun, hnotifies.connects, rfl,
      by simp [Entry.pump?]⟩
  | _ => exact ⟨fun _ _ => nofun, rfl, rfl, by simp [Entry.pump?]⟩

/-! ## What pumps have seen -/

/-- Only a look leaves a pump with a session that it has seen. -/
theorem Turn.seen {connected : Bool} {p q : Phase} {e : Option Entry} {seen : Session}
    (h : Turn g connected d p e q) (hq : q.seen? = some seen) : e = some (.looked d seen) := by
  cases h with
  | lookToAuthorize => cases hq; rfl
  | lookToIntercept => cases hq; rfl
  | lookToNotify => cases hq; rfl
  | authorize hauth _ =>
    rcases hauth.leads with ⟨fault, rfl⟩ | rfl | ⟨session, f', rfl⟩ | ⟨f', rfl⟩ <;> cases hq
  | intercept reply _ => cases reply <;> cases hq
  | @notify _ _ _ reply _ => cases reply <;> cases hq
  | write => cases d <;> cases hq
  | _ => cases hq

/-- A CONNECT that comes after one was authorized takes the pump nowhere but to its end. -/
theorem Turn.refuses {p q : Phase} {e : Option Entry} (h : Turn g true .toBroker p e q)
    (hp : p.Refuses) : q.Refuses ∧ ∀ a ∈ e, ∃ seen, a = .looked .toBroker seen := by
  cases h with
  | lookToAuthorize seen f => exact ⟨hp, by simp⟩
  | again => exact ⟨rfl, by simp⟩
  | authorize hauth hconnected =>
    obtain ⟨c, hf⟩ := hp
    cases hauth with
    | connect => exact absurd rfl (hconnected rfl _ _)
    | publish _ hf' => cases hf.symm.trans hf'
    | subscribe _ hf' => cases hf.symm.trans hf'
  | pass hneeds =>
    obtain ⟨c, hf⟩ := hp
    rw [hf] at hneeds
    cases hneeds
  | _ => cases hp

end MqttGateway.Relay
