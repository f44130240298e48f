import MqttGateway.Proofs.Frame.Rewriting
import MqttGateway.Proofs.Relay.Identity
/-!
# Who the broker takes the client for

Main statement: without an interceptor the broker reads a CONNECT exactly in place of the client's.
It names the session that the relay has stored and has from then on; in everything else it is the
client's own.
-/
namespace MqttGateway

structure Connect.Names (c : Connect) (s : Session) : Prop where
  clientId : c.clientId = s.id
  username : c.username.getD "" = s.username
  password : c.password.getD [] = s.password

structure Connect.SameTerms (c c' : Connect) : Prop where
  level : c'.level = c.level
  cleanSession : c'.cleanSession = c.cleanSession
  keepAlive : c'.keepAlive = c.keepAlive
  will : c'.will = c.will

namespace Connect

variable {c : Connect} {s t : Session}

theorem SameTerms.refl (c : Connect) : c.SameTerms c :=
  ⟨rfl, rfl, rfl, rfl⟩

theorem withIdentity_names (c : Connect) (s : Session) : (c.withIdentity s).Names s := by
  refine ⟨rfl, ?_, ?_⟩
  · show (if s.username = "" then none else some s.username).getD "" = s.username
    split
    case isTrue h => exact h.symm
    case isFalse => rfl
  · show (if s.password = [] then none else some s.password).getD [] = s.password
    split
    case isTrue h => exact h.symm
    case isFalse => rfl

/-- A CONNECT names the sessions with the identity that it requests. -/
theorem names_of_sameIdentity (h : s.sameIdentity (t.withConnect c) = true) : c.Names s := by
  simp only [Session.sameIdentity, Bool.and_eq_true, beq_iff_eq] at h
  exact ⟨h.1.1.symm, h.1.2.symm, h.2.symm⟩

end Connect

theorem Session.withConnect_congr {s t : Session} {c c' : Connect}
    (h : s.withConnect c = t.withConnect c') : t.withConnect c = t.withConnect c' := by
  simp only [withConnect, Session.mk.injEq] at h ⊢
  exact ⟨h.1, h.2.1, h.2.2.1, trivial, trivial⟩

/-- Only CONNECTs for the two known levels are read. -/
theorem Frame.Intact.level {f : Frame} {c : Connect} (hf : f.Intact)
    (hc : f.packet = .connect c) : c.level = 3 ∨ c.level = 4 := by
  have hsame := hf.onWire (by rw [hc]; exact fun _ _ => nofun)
  rw [hc] at hsame
  have hlevel : Connect.wireLevel c.level = c.level :=
    congrArg Connect.level (Packet.connect.inj hsame)
  rw [← hlevel, Connect.wireLevel]
  split
  · exact .inl rfl
  · exact .inr rfl

theorem Connect.wireLevel_of_known {level : UInt8} (h : level = 3 ∨ level = 4) :
    wireLevel level = level := by
  rcases h with rfl | rfl <;> rfl

/-- What goes out for a frame with another packet is read as another packet. -/
theorem Frame.Made.reads_other {f : Frame} {octets : Octets} (h : f.Made)
    (hraw : ∀ kind raw, f.packet ≠ .other kind raw) (hother : ∀ c, f.packet ≠ .connect c)
    (hwire : f.wire = .ok octets) : ∃ packet, (∀ c, packet ≠ .connect c) ∧
      ∀ more ending, Inlet.take ⟨octets ++ more, ending⟩ = .frame ⟨packet, some octets⟩ more := by
  refine ⟨f.readBack, fun c hc => ?_, h.take_wire hraw hwire⟩
  unfold Frame.readBack at hc
  split at hc
  · exact hother c hc
  · cases hp : f.packet with
    | connect c => exact hother c hp
    | _ =>
      rw [hp] at hc
      cases hc

namespace Relay

variable {σ : Type} {g : Gate σ} {s t : State σ} {first : Session}

/-! ## What the broker reads -/

/-- What the broker reads for a frame that `calls` have authorized: a CONNECT just for a CONNECT,
and then one that names the session which was given for it. -/
structure Introduces (f : Frame) (calls : List Call) (packet : Packet) : Prop where
  connect : ∀ c, f.packet = .connect c → ∃ c', packet = .connect c'
  names : ∀ c', packet = .connect c' → ∃ (c : Connect) (seen session : Session),
    f.packet = .connect c ∧ calls = [.authorizeConnect (seen.withConnect c) (.done session)] ∧
    c'.Names session ∧ c.SameTerms c'

/-- In place of another packet, kept or replaced, the broker reads no CONNECT. -/
theorem introduces_other {f : Frame} {calls : List Call} (p : Packet) {kept : Prop}
    [Decidable kept] {octets : Octets} (hf : f.Intact) (hother : ∀ c, f.packet ≠ .connect c)
    (hraw : ∀ kind raw, p ≠ .other kind raw) (hp : ∀ c, p ≠ .connect c)
    (hwire : (if kept then f else f.edit fun _ => p).wire = .ok octets) :
    ∃ packet, Introduces f calls packet ∧
      ∀ more ending, Inlet.take ⟨octets ++ more, ending⟩ = .frame ⟨packet, some octets⟩ more := by
  have introduces {packet : Packet} (hpacket : ∀ c, packet ≠ .connect c) :
      Introduces f calls packet :=
    ⟨fun c hc => absurd hc (hother c), fun c hc => absurd hc (hpacket c)⟩
  split at hwire
  case isTrue => exact ⟨f.packet, introduces hother, hf.take_wire hwire⟩
  case isFalse =>
    have hmade : (f.edit fun _ => p).Made := (Frame.Made.of_intact hf).edit _
    obtain ⟨packet, hpacket, htake⟩ := hmade.reads_other hraw hp hwire
    exact ⟨packet, introduces hpacket, htake⟩

theorem Clears.introduces {f f' : Frame} {calls : List Call} {octets : Octets}
    (h : Clears f .toBroker calls f') (hf : f.Intact) (hwire : f'.wire = .ok octets) :
    ∃ packet, Introduces f calls packet ∧
      ∀ more ending, Inlet.take ⟨octets ++ more, ending⟩ = .frame ⟨packet, some octets⟩ more := by
  cases h with
  | @connect c seen session hc =>
    unfold Frame.withIdentity at hwire
    split at hwire
    case isTrue hsame =>
      have hnames := Connect.names_of_sameIdentity hsame
      refine ⟨f.packet, ⟨fun c' hc' => ⟨c', hc'⟩, fun c' hc' => ?_⟩, hf.take_wire hwire⟩
      cases hc.symm.trans hc'
      exact ⟨c, seen, session, hc, rfl, hnames, .refl c⟩
    case isFalse =>
      obtain ⟨hframe, hdecode⟩ := Packet.decode_connect ((Frame.wire_eq_ok_iff rfl).mp hwire)
      refine ⟨_, ⟨fun _ _ => ⟨_, rfl⟩, ?_⟩, Packet.take_frame hframe hdecode⟩
      rintro _ ⟨⟩
      -- a CONNECT that was read has a level that is written as it is
      have hlevel := Connect.wireLevel_of_known (hf.level hc)
      have hnames := c.withIdentity_names session
      exact ⟨c, seen, session, hc, rfl, ⟨hnames.clientId, hnames.username, hnames.password⟩,
        ⟨hlevel, rfl, rfl, rfl⟩⟩
  | @publish q seen content hq =>
    exact introduces_other (.publish (q.withPublication content)) hf
      (fun c hc => nomatch hq.symm.trans hc) (fun _ _ => nofun) (fun _ => nofun) hwire
  | @subscribe q seen filters hq _ =>
    exact introduces_other (.subscribe (q.withFilters filters)) hf
      (fun c hc => nomatch hq.symm.trans hc) (fun _ _ => nofun) (fun _ => nofun) hwire
  | pass hneeds =>
    refine ⟨f.packet, ⟨fun c hc => ⟨c, hc⟩, fun c hc => ?_⟩, hf.take_wire hwire⟩
    rw [hc] at hneeds
    cases hneeds

/-! ## Runs -/

def Introduced (first : Session) (j : List Entry) : Entry → Prop
  | .wrote d f' octets => d = .toBroker → ∃ f calls, (taken .toBroker j).getLast? = some f ∧
      Clears f .toBroker calls f' ∧ f'.wire = .ok octets ∧
      ∀ asked session, calls = [.authorizeConnect asked (.done session)] →
        connects j = [(asked, .done session)] ∧ storedSessions j = [session] ∧
        ∃ c, asked = first.withConnect c
  | _ => True

theorem Knows.introduced (hi : g.interceptor = none) (hs : Knows g first s) {d : Direction}
    {e : Entry} {q : Phase} (h : Turn g s.connected d (s.phase d) (some e) q) :
    Introduced first s.journal e := by
  cases e with
  | wrote c f' octets =>
    rintro rfl
    obtain ⟨rfl, hp, hwire⟩ := h.of_wrote
    obtain ⟨ps, hand, rest, htaken, hcalls, -, hin⟩ := hs.accounts
    rw [hp] at hin
    obtain ⟨f, calls, cleared, is, rfl, rfl, hclears, hinspects⟩ := hin
    obtain rfl : f' = cleared := by
      cases hinspects with
      | unseen => rfl
      | intercepted _ _ hsome =>
        rw [hi] at hsome
        cases hsome
    refine ⟨f, calls, by rw [htaken, List.getLast?_concat], hclears, hwire, ?_⟩
    rintro asked session rfl
    have hcall : .authorizeConnect asked (.done session) ∈ gateCalls .toBroker s.journal := by
      rw [hcalls]
      simp
    have hasked := mem_connects hcall
    rcases hs.stage.cases_of_running (by rw [hp]; rfl) (by rw [hp]; exact fun _ _ => nofun)
      with ⟨-, hnone, -⟩ | ⟨-, c, stored, hone, hstored⟩
    · rw [hnone] at hasked
      cases hasked
    · rw [hone, List.mem_singleton] at hasked
      cases hasked
      exact ⟨hone, hstored, c, rfl⟩
  | _ => trivial

/-- Once a session is stored it is the session of the relay. -/
theorem Knows.eq_of_stored (hs : Knows g first s) {before after : List Entry} {session : Session}
    (hj : s.journal = before ++ after) (hstored : storedSessions before = [session]) :
    s.session = session := by
  rw [hs.session, sessionAfter]
  rcases hs.stage.stored.2 with hnone | ⟨_, final, -, hone⟩
  · rw [hj, storedSessions_append, hstored] at hnone
    cases hnone
  · have hboth := hone
    rw [hj, storedSessions_append, hstored] at hboth
    rw [hone, (List.cons.inj hboth).1]
    rfl

/-- Whatever goes to the broker is read there as one packet after another, a CONNECT just where the
client has sent one. That was authorized and its session stored, which the relay has from then on,
and it is this session that the broker reads of, on the terms that the client has asked for. -/
theorem introduces_stored_session (g : Gate σ) (hi : g.interceptor = none) (first : Session)
    (hooks : σ) (events : List Event) :
    let s := run g (.start first hooks) events
    (∃ last, (s.sink .toBroker).outlet.written =
      (forwarded .toBroker s.journal).flatMap (·.2) ++ last ∧ (last = [] ∨ last = farewell)) ∧
    ∀ before f' octets after, s.journal = before ++ .wrote .toBroker f' octets :: after →
      ∃ f packet, (taken .toBroker before).getLast? = some f ∧
        (∀ more ending, Inlet.take ⟨octets ++ more, ending⟩ = .frame ⟨packet, some octets⟩ more) ∧
        (∀ c, f.packet = .connect c → ∃ c', packet = .connect c') ∧
        ∀ c', packet = .connect c' → ∃ c session, f.packet = .connect c ∧
          connects before = [(first.withConnect c, .done session)] ∧
          storedSessions before = [session] ∧ s.session = session ∧ c'.Names session ∧
          c.SameTerms c' ∧ (c'.level = 3 ∨ c'.level = 4) := by
  intro s
  obtain ⟨hs, hj⟩ : Knows g first s ∧ Orderly (Introduced first) s.journal :=
    run_orderly (.start g first hooks) (.nil _) Knows.of_eq Knows.moves
      (fun hs hturn _ => hs.introduced hi hturn) Knows.concludes (fun _ => trivial)
      (fun _ _ _ _ => trivial) events
  refine ⟨run_sent_toBroker g first hooks events, fun before f' octets after hsplit => ?_⟩
  obtain ⟨f, calls, hlast, hclears, hwire, hgiven⟩ := hj _ _ _ hsplit rfl
  have hintact := run_intact g first hooks events hsplit hlast
  obtain ⟨packet, hintroduces, htake⟩ := hclears.introduces hintact hwire
  refine ⟨f, packet, hlast, htake, hintroduces.connect, fun c' hc' => ?_⟩
  obtain ⟨c, seen, session, hc, hcalls, hnames, hterms⟩ := hintroduces.names c' hc'
  obtain ⟨hconnects, hstored, asked, hasked⟩ := hgiven _ _ hcalls
  have hsession : s.session = session := hs.eq_of_stored hsplit hstored
  refine ⟨c, session, hc, ?_, hstored, hsession, hnames, hterms, ?_⟩
  · rw [hconnects, hasked, ← Session.withConnect_congr hasked]
  · rw [hterms.level]
    exact hintact.level hc

def aliasing : Gate Unit :=
  ⟨{ Policy.handler {} Unit with
      authorizeConnect := fun s _ => (.done { s with id := "b", username := "u" }, ()) }, none⟩

/-- A client connects as `a`, for level 3 of the protocol. -/
def connectingAsA : List Event :=
  .peer .toBroker (.arrive [0x10, 0x0F, 0x00, 0x06, 0x4D, 0x51, 0x49, 0x73, 0x64, 0x70, 0x03, 0x02,
    0x00, 0x3C, 0x00, 0x01, 0x61]) :: List.replicate 7 (.pump .toBroker)

def connectAsB : Octets :=
  [0x10, 0x12, 0x00, 0x06, 0x4D, 0x51, 0x49, 0x73, 0x64, 0x70, 0x03, 0x82, 0x00, 0x3C, 0x00, 0x01,
    0x62, 0x00, 0x01, 0x75]

theorem introduced_as_b :
    aliasing.interceptor = none ∧
    let s := run aliasing (.start {} ()) connectingAsA
    s.session.id = "b" ∧ (s.sink .toBroker).outlet.written = connectAsB ∧
    ∃ c, Packet.decode connectAsB = .ok (.connect c) ∧ c.Names s.session ∧ c.level = 3 := by
  refine ⟨rfl, ?_⟩
  intro s
  have hforwarded : forwarded .toBroker s.journal =
      [(⟨.connect ⟨3, "b", true, 60, some "u", none, none⟩, none⟩, connectAsB)] := by
    decide +kernel
  have hdecode : Packet.decode connectAsB =
      .ok (.connect ⟨3, "b", true, 60, some "u", none, none⟩) := by
    decide +kernel
  obtain ⟨before, after, hj⟩ := List.append_of_mem (mem_forwarded (hforwarded ▸ List.mem_cons_self))
  obtain ⟨f, packet, -, htake, -, hnames⟩ :=
    (introduces_stored_session aliasing rfl {} () connectingAsA).2 _ _ _ _ hj
  obtain ⟨_, -, -, hreceived, hread⟩ := Inlet.take_eq_frame_iff.mp (htake [] .open)
  cases hreceived
  obtain rfl : packet = .connect ⟨3, "b", true, 60, some "u", none, none⟩ :=
    Except.ok.inj (hread.symm.trans hdecode)
  obtain ⟨c, session, -, -, -, hsession, hnamed, -⟩ := hnames _ rfl
  exact ⟨by decide +kernel, by decide +kernel, _, hdecode, hsession ▸ hnamed, rfl⟩

end Relay
end MqttGateway
