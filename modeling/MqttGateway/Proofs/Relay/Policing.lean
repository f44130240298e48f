import MqttGateway.Proofs.Frame.Stream
import MqttGateway.Proofs.Relay.Identity
/-!
# A relay under a policy

What the pump to the broker holds is what the policy has put in place of the last frame it has
taken, for the session that it has seen. A relay under a policy has no interceptor.
-/
namespace MqttGateway

theorem Policy.done_of_reply {α : Type} {answer : Except Policy.Denial α} {a : α}
    (h : Policy.reply answer = .done a) : answer = .ok a := by
  cases answer with
  | ok b => cases h; rfl
  | error denial => cases h

/-- A policy lets a client connect under the session it asks for, or not at all. -/
theorem Policy.authorizeConnect_eq {p : Policy} {s t : Session} (h : p.authorizeConnect s = .ok t) :
    t = s := by
  unfold Policy.authorizeConnect Policy.granted at h
  split at h
  · cases h; rfl
  · cases h

theorem Frame.withIdentity_self (f : Frame) (c : Connect) (s : Session) :
    f.withIdentity c s s = f := by
  simp [Frame.withIdentity, Session.sameIdentity]

namespace Relay

variable {σ : Type} {s t : State σ} {first : Session} {p : Policy}

def policed (p : Policy) (σ : Type) : Gate σ :=
  ⟨p.handler σ, none⟩

inductive Replaces (p : Policy) (session : Session) (f : Frame) : Frame → Prop
  | same : (∀ q, f.packet ≠ .publish q) → (∀ q, f.packet ≠ .subscribe q) →
      Replaces p session f f
  | publication {q : Publish} {content : Publication} : f.packet = .publish q →
      p.authorizePublish session q.publication = .ok content →
      Replaces p session f (f.withPublication q content)
  | filters {q : Subscribe} {filters : List String} : f.packet = .subscribe q →
      p.authorizeSubscribe session q.filters = .ok filters →
      Replaces p session f (f.withFilters q filters)

def Phase.Obeys (p : Policy) (session : Session) (last : Option Frame) : Phase → Prop
  | .storing _ f => last = some f ∧ ∃ c, f.packet = .connect c
  | .intercepting _ f' => ∃ f, last = some f ∧ Replaces p session f f'
  | .writing f' => ∃ f, last = some f ∧ Replaces p session f f'
  | _ => True

/-- The answer of a policy to an authorizing call ends the pump or leaves it with what the policy
puts in place of the frame. -/
theorem Authorizes.obeys {seen : Session} {f : Frame} {call : Call} {q : Phase} {before after : σ}
    (h : Authorizes seen f .toBroker call q) (hcall : call.AnsweredBy (policed p σ) before after) :
    q.Obeys p seen (some f) := by
  cases h with
  | @connect c reply hf =>
    cases reply with
    | done session =>
      obtain rfl := Policy.authorizeConnect_eq (Policy.done_of_reply (congrArg Prod.fst hcall))
      simp only [Phase.ofReply, Frame.withIdentity_self]
      exact ⟨rfl, c, hf⟩
    | refused causes => trivial
    | crashed => trivial
  | publish reply hf =>
    cases reply with
    | done content =>
      exact ⟨f, rfl, .publication hf (Policy.done_of_reply (congrArg Prod.fst hcall))⟩
    | refused causes => trivial
    | crashed => trivial
  | subscribe reply hf =>
    cases reply with
    | done filters =>
      simp only [Phase.ofReply]
      split
      case isTrue => trivial
      case isFalse =>
        exact ⟨f, rfl, .filters hf (Policy.done_of_reply (congrArg Prod.fst hcall))⟩
    | refused causes => trivial
    | crashed => trivial

theorem obeys_ofReply {fault : Refusal → PumpFault} {session : Session} {last : Option Frame}
    (reply : Reply Unit) :
    (Phase.ofReply fault (fun _ => .reading) reply).Obeys p session last := by
  cases reply <;> trivial

structure Policed (p : Policy) (first : Session) (s : State σ) : Prop where
  knows : Knows (policed p σ) first s
  obeys : (s.phase .toBroker).Obeys p s.session (taken .toBroker s.journal).getLast?
  intact : ∀ f ∈ taken .toBroker s.journal, f.Intact

theorem Turn.obeys {connected : Bool} {q r : Phase} {e : Option Entry} {session later : Session}
    {last : Option Frame} {before after : σ}
    (h : Turn (policed p σ) connected .toBroker q e r) (hq : q.Obeys p session last)
    (hlast : ∀ seen f, q = .authorizing (some seen) f → seen = session ∧ last = some f)
    (hcall : ∀ call, e = some (.called .toBroker call) →
      call.AnsweredBy (policed p σ) before after)
    (hlater : (∀ stored, e ≠ some (.stored stored)) → later = session) :
    r.Obeys p later last := by
  cases h with
  | store session' f =>
    -- only a CONNECT is stored for, and that goes on as it is whatever the session
    obtain ⟨rfl, c, hc⟩ := hq
    exact ⟨f, rfl, .same (fun q hq => nomatch hc.symm.trans hq) fun q hq =>
      nomatch hc.symm.trans hq⟩
  | authorize hauth _ =>
    obtain ⟨rfl, rfl⟩ := hlast _ _ rfl
    obtain rfl := hlater fun _ => nofun
    exact hauth.obeys (hcall _ rfl)
  | @pass seen f hneeds =>
    obtain ⟨-, rfl⟩ := hlast _ _ rfl
    refine ⟨f, rfl, .same (fun q hq => ?_) fun q hq => ?_⟩ <;>
      · rw [hq] at hneeds
        cases hneeds
  | lookToIntercept =>
    obtain rfl := hlater fun _ => nofun
    exact hq
  | intercept reply hi => cases hi
  | unseen =>
    obtain rfl := hlater fun _ => nofun
    exact hq
  | notify => exact obeys_ofReply _
  | _ => trivial

theorem Performs.later {g : Gate σ} {d : Direction} {e : Option Entry} (h : Performs g d s e t)
    (he : ∀ stored, e ≠ some (.stored stored)) : t.session = s.session := by
  cases h with
  | store session => exact absurd rfl (he session)
  | _ => simp [State.setSink]

theorem Performs.intact {g : Gate σ} {c d : Direction} {e : Option Entry} (h : Performs g c s e t)
    (hs : ∀ f ∈ taken d s.journal, f.Intact) : ∀ f ∈ taken d t.journal, f.Intact := by
  intro f hf
  rw [h.journal, taken_append, List.mem_append] at hf
  rcases hf with hf | hf
  · exact hs f hf
  · cases h with
    | @take f' rest hstop htake =>
      obtain ⟨a, ha, haf⟩ := List.mem_filterMap.mp hf
      rw [List.mem_singleton.mp ha] at haf
      simp only [Option.ite_none_right_eq_some] at haf
      obtain ⟨-, haf⟩ := haf
      cases haf
      exact Inlet.take_intact htake
    | _ => cases hf

theorem Performs.taken {g : Gate σ} {c d : Direction} {e : Option Entry} (h : Performs g c s e t)
    (he : ∀ f, e ≠ some (.took d f)) : taken d t.journal = taken d s.journal := by
  have hnone : Relay.taken d e.toList = [] := by
    refine List.filterMap_eq_nil_iff.mpr fun a ha => ?_
    cases a with
    | took c f =>
      have hc : c ≠ d := by
        rintro rfl
        exact he f (Option.mem_toList.mp ha)
      simp [hc]
    | _ => rfl
  rw [h.journal, taken_append, hnone, List.append_nil]

theorem Policed.moves (hs : Policed p first s) {d : Direction} (h : Moves (policed p σ) d s t) :
    Policed p first t := by
  have hknows := hs.knows.moves h
  obtain ⟨e, q, r, hturn, hperf, rfl⟩ := h
  refine ⟨hknows, ?_, by simpa using hperf.intact hs.intact⟩
  rw [State.enter_session, State.enter_journal]
  cases d with
  | toBroker =>
    rw [State.enter_phase]
    by_cases htook : ∀ f, e ≠ some (.took .toBroker f)
    · rw [hperf.taken htook]
      have hcall (call : Call) (he : e = some (.called .toBroker call)) :
          call.AnsweredBy (policed p σ) s.hooks r.hooks := by
        subst he
        exact hperf.answeredBy
      refine hturn.obeys hs.obeys (fun seen f hp => ?_) hcall hperf.later
      have hsees := hs.knows.sees .toBroker seen (by rw [hp]; rfl)
      rw [hs.knows.session]
      exact ⟨hsees.eq_session, hs.knows.accounts.getLast?_taken hp⟩
    · obtain ⟨f, hf⟩ := Classical.not_forall.mp htook
      obtain rfl := Classical.not_not.mp hf
      generalize s.phase .toBroker = phase at hturn
      cases hturn
      trivial
  | toClient =>
    obtain ⟨-, -, hstored, hpump⟩ := hturn.ne_storing hs.knows.idle
    have htook (f : Frame) : e ≠ some (.took .toBroker f) := fun he => nomatch hpump _ he
    have hsame (session : Session) : e ≠ some (.stored session) := fun he => nomatch hpump _ he
    have hne : Direction.toBroker ≠ .toClient := nofun
    rw [State.enter_phase_of_ne _ _ _ hne, hperf.phase, hperf.taken htook, hperf.later hsame]
    exact hs.obeys

theorem Policed.of_eq (hs : Policed p first s) (hjournal : t.journal = s.journal)
    (hsession : t.session = s.session) (hconnected : t.connected = s.connected)
    (hphase : ∀ d, t.phase d = s.phase d) : Policed p first t := by
  have hknows := hs.knows.of_eq hjournal hsession hconnected hphase
  refine ⟨hknows, ?_, ?_⟩
  · rw [hjournal, hsession, hphase]
    exact hs.obeys
  · rw [hjournal]
    exact hs.intact

theorem Policed.start (p : Policy) (first : Session) (hooks : σ) :
    Policed p first (State.start first hooks) :=
  ⟨.start _ first hooks, trivial, fun _ => nofun⟩

theorem Policed.concludes (hs : Policed p first s) (h : Concludes s t) : Policed p first t := by
  obtain ⟨k, hk, hlast⟩ := h.journal
  have htaken : taken .toBroker t.journal = taken .toBroker s.journal := by
    rw [hk, taken_append, taken_last hlast, List.append_nil]
  exact ⟨hs.knows.concludes h, by rw [h.phase, h.session, htaken]; exact hs.obeys,
    by rw [htaken]; exact hs.intact⟩

/-! ## Runs -/

def Replaced (p : Policy) (first : Session) (j : List Entry) : Entry → Prop
  | .wrote d f' octets => d = .toBroker → ∃ f, (taken .toBroker j).getLast? = some f ∧ f.Intact ∧
      Replaces p (sessionAfter first j) f f' ∧ f'.wire = .ok octets
  | _ => True

theorem Policed.replaced (hs : Policed p first s) {d : Direction} {e : Entry} {q : Phase}
    (h : Turn (policed p σ) s.connected d (s.phase d) (some e) q) :
    Replaced p first s.journal e := by
  cases e with
  | wrote c f' octets =>
    rintro rfl
    obtain ⟨rfl, hp, hwire⟩ := h.of_wrote
    have hobeys := hs.obeys
    rw [hp] at hobeys
    obtain ⟨f, hlast, hreplaces⟩ := hobeys
    exact ⟨f, hlast, hs.intact f (List.mem_of_getLast? hlast), hs.knows.session ▸ hreplaces, hwire⟩
  | _ => trivial

theorem run_replaced (p : Policy) (first : Session) (hooks : σ) (events : List Event) :
    Policed p first (run (policed p σ) (.start first hooks) events) ∧
      Orderly (Replaced p first) (run (policed p σ) (.start first hooks) events).journal :=
  run_orderly (.start p first hooks) (.nil _) Policed.of_eq (fun hs h => hs.moves h)
    (fun hs hturn _ => hs.replaced hturn) Policed.concludes (fun _ => trivial)
    (fun _ _ _ _ => trivial) events

end Relay
end MqttGateway
