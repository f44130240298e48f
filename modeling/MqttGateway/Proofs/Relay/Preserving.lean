import MqttGateway.Proofs.Relay.Introducing
import MqttGateway.Proofs.Relay.Sending
/-!
# What a CONNECT keeps

An answer to a CONNECT names a user and a password, which are empty where the client has sent none.
Main statement: without an interceptor each part of the identity that the answer leaves as it was
requested reaches the broker as the client has sent it, unless it is there but empty and the answer
changes another part. Then it is left out.
-/
namespace MqttGateway

namespace Connect

variable {c : Connect} {requested session : Session}

/-- `c'` has what the session leaves of the identity in `c` just as `c` has it. -/
structure Keeps (c c' : Connect) (session : Session) : Prop where
  clientId : session.id = c.clientId → c'.clientId = c.clientId
  username : session.username = c.username.getD "" → c'.username = c.username
  password : session.password = c.password.getD [] → c'.password = c.password

def answered (c : Connect) (requested session : Session) : Connect :=
  if session.sameIdentity requested then c else c.withIdentity session

theorem answered_of_same (h : session.sameIdentity requested = true) :
    c.answered requested session = c :=
  if_pos h

theorem answered_of_other (h : session.sameIdentity requested = false) :
    c.answered requested session = c.withIdentity session :=
  if_neg (Bool.eq_false_iff.mp h)

/-- Nothing that a session has is written as a field that is there but empty. -/
theorem withIdentity_not_empty (c : Connect) (session : Session) :
    (c.withIdentity session).username ≠ some "" ∧ (c.withIdentity session).password ≠ some [] := by
  constructor <;> simp [withIdentity]

theorem answered_level (c : Connect) (requested session : Session) :
    (c.answered requested session).level = c.level := by
  unfold answered
  split <;> rfl

theorem answered_sameTerms (c : Connect) (requested session : Session) :
    c.SameTerms (c.answered requested session) := by
  unfold answered
  split
  · exact .refl c
  · exact ⟨rfl, rfl, rfl, rfl⟩

theorem answered_names (c : Connect) (seen session : Session) :
    (c.answered (seen.withConnect c) session).Names session := by
  unfold answered
  split
  case isTrue hsame => exact names_of_sameIdentity hsame
  case isFalse => exact c.withIdentity_names session

/-- An absent field and one with something in it are restored from what the session has of them. -/
theorem restored_iff {α : Type} [DecidableEq α] (empty : α) (sent : Option α) :
    (if sent.getD empty = empty then none else some (sent.getD empty)) = sent ↔
      sent ≠ some empty := by
  cases sent with
  | none => simp
  | some a => by_cases ha : a = empty <;> simp [ha]

/-- A CONNECT with another identity keeps what is left of its own but fields that are there and
empty. -/
theorem withIdentity_keeps_iff (c : Connect) (session : Session) :
    c.Keeps (c.withIdentity session) session ↔
      (session.username = "" → c.username ≠ some "") ∧
      (session.password = [] → c.password ≠ some []) := by
  constructor
  · rintro ⟨-, username, password⟩
    refine ⟨fun hempty hsent => ?_, fun hempty hsent => ?_⟩
    · have hkept := username (by rw [hempty, hsent]; rfl)
      simp [withIdentity, hempty, hsent] at hkept
    · have hkept := password (by rw [hempty, hsent]; rfl)
      simp [withIdentity, hempty, hsent] at hkept
  · rintro ⟨husername, hpassword⟩
    refine ⟨id, fun hleft => ?_, fun hleft => ?_⟩
    · show (if session.username = "" then none else some session.username) = c.username
      rw [hleft] at husername ⊢
      refine (restored_iff "" c.username).mpr fun hsent => ?_
      exact husername (by rw [hsent]; rfl) hsent
    · show (if session.password = [] then none else some session.password) = c.password
      rw [hleft] at hpassword ⊢
      refine (restored_iff [] c.password).mpr fun hsent => ?_
      exact hpassword (by rw [hsent]; rfl) hsent

theorem answered_keeps_iff (c : Connect) (requested session : Session) :
    c.Keeps (c.answered requested session) session ↔
      session.sameIdentity requested = true ∨
        (session.username = "" → c.username ≠ some "") ∧
        (session.password = [] → c.password ≠ some []) := by
  unfold answered
  split
  case isTrue hsame =>
    have hkeeps : c.Keeps c session := ⟨fun _ => rfl, fun _ => rfl, fun _ => rfl⟩
    exact iff_of_true hkeeps (.inl hsame)
  case isFalse hother =>
    rw [withIdentity_keeps_iff]
    exact ⟨.inr, fun h => h.resolve_left hother⟩

end Connect

theorem Frame.withIdentity_packet {f : Frame} {c : Connect} (hc : f.packet = .connect c)
    (requested session : Session) :
    (f.withIdentity c requested session).packet = .connect (c.answered requested session) := by
  unfold Frame.withIdentity Connect.answered
  split
  · exact hc
  · rfl

namespace Relay

variable {σ : Type} {g : Gate σ} {s : State σ} {seen : Session} {f : Frame}

theorem pump_connect {c : Connect} {session : Session}
    (hp : s.phase .toBroker = .authorizing (some seen) f) (hf : f.packet = .connect c)
    (hfirst : s.connected = false)
    (hanswer : (g.handler.authorizeConnect (seen.withConnect c) s.hooks).1 = .done session) :
    (pump g .toBroker s).phase .toBroker =
        .storing session (f.withIdentity c (seen.withConnect c) session) ∧
      (pump g .toBroker s).sink .toBroker = s.sink .toBroker := by
  simp only [pump, hp, authorize, hf, authorizeConnect, hfirst, Bool.false_eq_true, if_false,
    ask_phase, hanswer, Phase.ofReply, State.sink, ask_source, and_self]

theorem connect_sends (hi : g.interceptor = none) {c : Connect} {session : Session}
    (hp : s.phase .toBroker = .authorizing (some seen) f) (hf : f.Intact)
    (hpacket : f.packet = .connect c) (hfirst : s.connected = false)
    (hanswer : (g.handler.authorizeConnect (seen.withConnect c) s.hooks).1 = .done session)
    {more : List Event} (hmore : more.count (.pump .toBroker) = 3) :
    Sends .toBroker s (run g s (.pump .toBroker :: more ++ [.pump .toBroker]))
      (.connect (c.answered (seen.withConnect c) session)) := by
  obtain ⟨hphase, hsink⟩ := pump_connect hp hpacket hfirst hanswer
  have hlevel := c.answered_level (seen.withConnect c) session
  refine answered_sends hi hmore hsink ?_ (hf.made_or_edit _ _)
    (Frame.withIdentity_packet hpacket _ _) (fun _ _ => nofun) ?_
  · rw [hphase]
    exact .storing session
  · rw [Packet.onWire, hlevel, Connect.wireLevel_of_known (hf.level hpacket), ← hlevel]

/-- The pump to the broker is about to ask about the first CONNECT. If nobody intercepts, the pump
sends one that names the answered session, on the client's own terms, however the steps of the relay
follow each other. It is the client's own if the answer leaves the identity as it was requested, and
has no field that is there but empty if not. So it keeps each part of the identity that the answer
leaves exactly if all of them are left, or none that is there but empty. -/
theorem sends_identity_kept_iff (g : Gate σ) (hi : g.interceptor = none) (first : Session)
    (hooks : σ) (events : List Event) (seen : Session) (f : Frame)
    (hp : (run g (.start first hooks) events).phase .toBroker = .authorizing (some seen) f) :
    let s := run g (.start first hooks) events
    (taken .toBroker s.journal).getLast? = some f ∧ f.Intact ∧
    ∀ c session, f.packet = .connect c → s.connected = false →
      (g.handler.authorizeConnect (seen.withConnect c) s.hooks).1 = .done session →
      ∃ c', (∀ more, more.count (.pump .toBroker) = 3 →
          Sends .toBroker s (run g s (.pump .toBroker :: more ++ [.pump .toBroker]))
            (.connect c')) ∧
        c'.Names session ∧ c.SameTerms c' ∧
        (session.sameIdentity (seen.withConnect c) = true → c' = c) ∧
        (session.sameIdentity (seen.withConnect c) = false →
          c'.username ≠ some "" ∧ c'.password ≠ some []) ∧
        (c.Keeps c' session ↔ session.sameIdentity (seen.withConnect c) = true ∨
          (session.username = "" → c.username ≠ some "") ∧
          (session.password = [] → c.password ≠ some [])) := by
  intro s
  obtain ⟨hlast, hintact⟩ := run_in_hand g first hooks events hp
  refine ⟨hlast, hintact, fun c session hpacket hfirst hanswer => ?_⟩
  refine ⟨c.answered (seen.withConnect c) session, fun more hmore => ?_,
    c.answered_names seen session, c.answered_sameTerms _ session, Connect.answered_of_same, ?_,
    c.answered_keeps_iff _ session⟩
  · exact connect_sends hi hp hintact hpacket hfirst hanswer hmore
  · intro hother
    rw [Connect.answered_of_other hother]
    exact c.withIdentity_not_empty session

def rechristening : Gate Unit :=
  ⟨{ Policy.handler {} Unit with authorizeConnect := fun s _ => (.done { s with id := "e" }, ()) },
    none⟩

/-- A CONNECT as `d` with these flags and these octets behind the client id. -/
def connectAsD (flags : UInt8) (fields : Octets) : Octets :=
  [0x10, UInt8.ofNat (13 + fields.length), 0x00, 0x04, 0x4D, 0x51, 0x54, 0x54, 0x04, flags, 0x00,
    0x3C, 0x00, 0x01, 0x64] ++ fields

def connectingAsD (flags : UInt8) (fields : Octets) : List Event :=
  [.peer .toBroker (.arrive (connectAsD flags fields)), .pump .toBroker, .pump .toBroker]

/-- A user name that is not empty is kept, and a password that is not there stays out. -/
theorem keeps_username :
    let s := run rechristening (.start {} ()) (connectingAsD 0x82 [0x00, 0x01, 0x75])
    let c : Connect := ⟨4, "d", true, 60, some "u", none, none⟩
    (taken .toBroker s.journal).map (·.packet) = [.connect c] ∧
    ∃ c', c'.clientId = "e" ∧ c'.username = some "u" ∧ c'.password = none ∧
      ∀ more, more.count (.pump .toBroker) = 3 →
        Sends .toBroker s (run rechristening s (.pump .toBroker :: more ++ [.pump .toBroker]))
          (.connect c') := by
  intro s c
  have hp : s.phase .toBroker =
      .authorizing (some {}) ⟨.connect c, some (connectAsD 0x82 [0x00, 0x01, 0x75])⟩ := by
    decide +kernel
  have hfirst : s.connected = false := by decide +kernel
  obtain ⟨-, -, hsends⟩ := sends_identity_kept_iff rechristening rfl {} ()
    (connectingAsD 0x82 [0x00, 0x01, 0x75]) {} _ hp
  obtain ⟨c', hsent, hnames, -, -, -, hkeeps⟩ :=
    hsends c { id := "e", username := "u" } rfl hfirst rfl
  have hkept := hkeeps.mpr (.inr ⟨by decide, by decide⟩)
  refine ⟨by decide +kernel, c', hnames.clientId, hkept.username rfl, hkept.password rfl, hsent⟩

/-- A client connects with an empty user name and a password. Its id is changed, and the broker
reads of a password without a user name. -/
theorem loses_empty_username :
    let s := run rechristening (.start {} ())
      (connectingAsD 0xC2 [0x00, 0x00, 0x00, 0x01, 0x70] ++ List.replicate 5 (.pump .toBroker))
    let c : Connect := ⟨4, "d", true, 60, some "", some [0x70], none⟩
    let c' : Connect := ⟨4, "e", true, 60, none, some [0x70], none⟩
    (taken .toBroker s.journal).map (·.packet) = [.connect c] ∧
    s.session = { id := "e", username := "", password := [0x70] } ∧
    (Packet.decode (s.sink .toBroker).outlet.written).toOption = some (.connect c') ∧
    ¬ c.Keeps c' s.session := by
  intro s c c'
  have hsession : s.session = { id := "e", username := "", password := [0x70] } := by
    decide +kernel
  refine ⟨by decide +kernel, hsession, by decide +kernel, fun hkeeps => ?_⟩
  have hkept := hkeeps.username (by rw [hsession]; rfl)
  cases hkept

end Relay
end MqttGateway
