import MqttGateway.Proofs.Relay.Forwarding
import MqttGateway.Proofs.Relay.Stages
/-!
# The session of a relay

Main statement: a relay starts with one session and changes it at most once, for the session with
which its only request to authorize a CONNECT is answered. What every pump sees follows from the
journal.
-/
namespace MqttGateway.Relay

variable {σ : Type} {g : Gate σ} {s t : State σ} {c d : Direction} {first : Session}

structure Knows (g : Gate σ) (first : Session) (s : State σ) : Prop where
  session : s.session = sessionAfter first s.journal
  stage : Stage first (s.phase .toBroker) s.connected (connects s.journal)
    (storedSessions s.journal)
  idle : ∀ session f, s.phase .toClient ≠ .storing session f
  sees : ∀ d seen, (s.phase d).seen? = some seen → Sees first d s.journal seen
  repeats : Repeats s.journal → (s.phase .toBroker).Refuses
  accounts : Accounts g .toBroker s

/-- The calls that a turn makes in the name of a pump are made with what the pump has seen. -/
theorem Turn.seenBefore {connected : Bool} {p q : Phase} {call : Call}
    (h : Turn g connected d p (some (.called d call)) q) : ∃ seen, p.seen? = some seen ∧
      ((∀ asked reply, call ≠ .authorizeConnect asked reply) ∧ call.session = seen ∨
      ∃ f c reply, d = .toBroker ∧ p = .authorizing (some seen) f ∧ f.packet = .connect c ∧
        call = .authorizeConnect (seen.withConnect c) reply ∧ connected = false) := by
  cases h with
  | @authorize seen f _ _ hauth hconnected =>
    refine ⟨seen, rfl, ?_⟩
    cases hauth with
    | @connect c reply hf =>
      refine .inr ⟨f, c, reply, rfl, rfl, hf, rfl, ?_⟩
      cases connected with
      | false => rfl
      | true => exact absurd rfl (hconnected rfl _ _)
    | publish => exact .inl ⟨fun _ _ => nofun, rfl⟩
    | subscribe => exact .inl ⟨fun _ _ => nofun, rfl⟩
    | delivery => exact .inl ⟨fun _ _ => nofun, rfl⟩
  | intercept => exact ⟨_, rfl, .inl ⟨fun _ _ => nofun, rfl⟩⟩
  | notify hnotifies =>
    exact ⟨_, rfl, .inl hnotifies.session⟩

/-- The frame of a packet that is being authorized is the last one taken. -/
theorem Accounts.getLast?_taken {seen : Option Session} {f : Frame} (h : Accounts g d s)
    (hp : s.phase d = .authorizing seen f) : (taken d s.journal).getLast? = some f := by
  obtain ⟨ps, hand, rest, htaken, -, -, hin⟩ := h
  rw [hp] at hin
  obtain ⟨rfl, -⟩ := hin
  rw [htaken, List.getLast?_concat]

/-- What is about to be written to the broker in place of a CONNECT is there because one was
authorized. -/
theorem Accounts.connects_ne_nil {f f₀ : Frame} {c : Connect} (h : Accounts g .toBroker s)
    (hp : s.phase .toBroker = .writing f) (hf₀ : (taken .toBroker s.journal).getLast? = some f₀)
    (hc : f₀.packet = .connect c) : connects s.journal ≠ [] := by
  obtain ⟨ps, hand, rest, htaken, hcalls, -, hin⟩ := h
  rw [hp] at hin
  obtain ⟨f₁, as, f', is, rfl, rfl, hclears, -⟩ := hin
  rw [htaken, List.getLast?_concat] at hf₀
  cases hf₀
  have asked {asked : Session} {reply : Reply Session}
      (has : as = [.authorizeConnect asked reply]) : connects s.journal ≠ [] := by
    have hcall : .authorizeConnect asked reply ∈ gateCalls .toBroker s.journal := by
      rw [hcalls, has]
      simp
    exact List.ne_nil_of_mem (mem_connects hcall)
  cases hclears with
  | connect => exact asked rfl
  | publish _ _ hf => cases hc.symm.trans hf
  | subscribe _ _ hf => cases hc.symm.trans hf
  | pass hneeds =>
    rw [hc] at hneeds
    cases hneeds

/-- As long as the pump to the broker runs, a CONNECT that comes too late finds one authorized. -/
theorem Knows.connected (hs : Knows g first s) (h : Repeats s.journal)
    (hover : (s.phase .toBroker).isOver = false) : s.connected = true := by
  have hp : ∀ session f, s.phase .toBroker ≠ .storing session f := by
    intro session f hp
    have hrefuses := hs.repeats h
    rw [hp] at hrefuses
    exact hrefuses
  obtain ⟨asked, session, hdone⟩ := h.authorized
  rcases hs.stage.cases_of_running hover hp with ⟨-, hnone, -⟩ | ⟨hconnected, -⟩
  · rw [hnone] at hdone
    cases hdone
  · exact hconnected

theorem Knows.admits_called (hs : Knows g first s) {call : Call} {q : Phase}
    (h : Turn g s.connected d (s.phase d) (some (.called d call)) q) :
    Admits first s.journal (.called d call) := by
  constructor
  · rintro rfl hrepeats
    have hconnected := hs.connected hrepeats h.not_over
    rw [hconnected] at h
    obtain ⟨seen, hseen⟩ := (h.refuses (hs.repeats hrepeats)).2 _ rfl
    cases hseen
  · obtain ⟨seen, hp, hcall⟩ := h.seenBefore
    refine ⟨seen, hs.sees d seen hp, ?_⟩
    rcases hcall with ⟨hother, hsession⟩ | ⟨f, c, reply, rfl, hp, hf, rfl, hconnected⟩
    · cases call with
      | authorizeConnect asked reply => exact absurd rfl (hother asked reply)
      | _ => exact hsession
    · rcases hs.stage.cases_of_running (by rw [hp]; rfl) (by rw [hp]; exact fun _ _ => nofun)
        with ⟨-, hnone, hstored⟩ | ⟨hconnected', -⟩
      · obtain rfl := (hs.sees .toBroker seen (by rw [hp]; rfl)).eq_first hstored
        exact ⟨hnone, rfl, f, c, hs.accounts.getLast?_taken hp, hf, rfl⟩
      · rw [hconnected] at hconnected'
        cases hconnected'

/-- What a move of a pump notes is admitted. -/
theorem Knows.admits (hs : Knows g first s) {e : Entry} {q : Phase}
    (h : Turn g s.connected d (s.phase d) (some e) q) (hperf : Performs g d s (some e) t) :
    Admits first s.journal e := by
  -- no turn to the broker but a look is left after a CONNECT that comes too late
  have running (hd : d = .toBroker) (hlook : ∀ seen, e ≠ .looked .toBroker seen) :
      ¬ Repeats s.journal := by
    rintro hrepeats
    subst hd
    rw [hs.connected hrepeats h.not_over] at h
    obtain ⟨seen, hseen⟩ := (h.refuses (hs.repeats hrepeats)).2 e rfl
    exact hlook seen hseen
  generalize he : some e = e' at hperf
  cases hperf with
  | nothing => cases he
  | take => cases he; exact fun hd => running hd fun _ => nofun
  | look => cases he; exact hs.session
  | call => cases he; exact hs.admits_called h
  | store session =>
    cases he
    generalize hp : s.phase d = p at h
    cases h with
    | store _ f =>
      cases d with
      | toClient => exact absurd hp (hs.idle session f)
      | toBroker =>
        have hstage := hs.stage
        rw [hp] at hstage
        exact hstage.of_storing
  | @write f octets =>
    cases he
    rintro rfl
    refine ⟨running rfl fun _ => nofun, fun f₀ c hf₀ hc => ?_⟩
    generalize hp : s.phase .toBroker = p at h
    cases h with
    | write hwire =>
      rcases hs.stage.cases_of_running (by rw [hp]; rfl) (by rw [hp]; exact fun _ _ => nofun)
        with ⟨-, hnone, -⟩ | ⟨-, _, session, -, hstored⟩
      · exact absurd hnone (hs.accounts.connects_ne_nil hp hf₀ hc)
      · exact ⟨session, hstored⟩

theorem Performs.session {e : Option Entry} (h : Performs g d s e t)
    (hs : s.session = sessionAfter first s.journal) : t.session = sessionAfter first t.journal := by
  cases h with
  | nothing => exact hs
  | store session => exact (sessionAfter_stored _ session).symm
  | take => simpa [sessionAfter_of_none, storedSessions] using hs
  | look => simpa [sessionAfter_of_none, storedSessions] using hs
  | call => simpa [sessionAfter_of_none, storedSessions] using hs
  | write => simpa [State.setSink, sessionAfter_of_none, storedSessions] using hs

theorem Performs.connected {e : Option Entry} (h : Performs g d s e t) :
    t.connected = (s.connected || !(storedSessions e.toList).isEmpty) := by
  cases h <;> simp [State.setSink, storedSessions]

theorem Performs.pump? {e : Option Entry} (h : Performs g d s e t) :
    (∃ session, e = some (.stored session)) ∨ ∀ a ∈ e, a.pump? = some d := by
  cases h with
  | store session => exact .inl ⟨session, rfl⟩
  | _ => exact .inr (by simp [Entry.pump?])

/-! ## Runs -/

/-- The entries of a turn are those of its pump. -/
theorem Knows.pump? (hs : Knows g first s) {e : Option Entry} {q : Phase}
    (h : Turn g s.connected d (s.phase d) e q) (hperf : Performs g d s e t) :
    ∀ a ∈ e, a.pump? = some d := by
  cases d with
  | toClient => exact (h.ne_storing hs.idle).2.2.2
  | toBroker =>
    rcases hperf.pump? with ⟨session, rfl⟩ | hpump
    · simp [Entry.pump?]
    · exact hpump

/-- What a pump has seen after a turn it saw before, and what the other has seen stays seen. -/
theorem Knows.sees_enter (hs : Knows g first s) {e : Option Entry} {q : Phase} {seen : Session}
    (h : Turn g s.connected d (s.phase d) e q) (hperf : Performs g d s e t)
    (hc : ((t.enter d q).phase c).seen? = some seen) :
    Sees first c (s.journal ++ e.toList) seen := by
  by_cases hcd : c = d
  · subst hcd
    rw [State.enter_phase] at hc
    obtain rfl := h.seen hc
    exact ⟨s.journal, [], rfl, hs.admits h hperf, fun _ => nofun⟩
  · rw [hperf.enter_phase_of_ne q hcd] at hc
    refine (hs.sees c seen hc).append fun a ha hpump => hcd ?_
    rw [hs.pump? h hperf a (Option.mem_toList.mp ha)] at hpump
    exact (Option.some.inj hpump).symm

/-- After a turn as before it a CONNECT that comes too late is being refused. -/
theorem Knows.refuses_enter (hs : Knows g first s) {e : Option Entry} {q : Phase}
    (h : Turn g s.connected d (s.phase d) e q) (hperf : Performs g d s e t)
    (hrepeats : Repeats (s.journal ++ e.toList)) : ((t.enter d q).phase .toBroker).Refuses := by
  cases d with
  | toBroker =>
    rw [State.enter_phase]
    rcases hrepeats.of_toList with hbefore | ⟨f, c, rfl, hf⟩
    · rw [hs.connected hbefore h.not_over] at h
      exact (h.refuses (hs.repeats hbefore)).1
    · generalize s.phase .toBroker = p at h
      cases h with
      | take => exact ⟨c, hf⟩
  | toClient =>
    rw [hperf.enter_phase_of_ne q (c := .toBroker) nofun]
    rcases hrepeats.of_toList with hbefore | ⟨f, c, rfl, -⟩
    · exact hs.repeats hbefore
    · have hpump := hs.pump? h hperf _ rfl
      cases hpump

theorem Knows.moves (hs : Knows g first s) (h : Moves g d s t) : Knows g first t := by
  have haccounts := hs.accounts.moves h
  obtain ⟨e, q, r, hturn, hperf, rfl⟩ := h
  refine ⟨by simpa using hperf.session hs.session, ?_, ?_, ?_, ?_, haccounts⟩
  · rw [hperf.enter_journal, connects_append, storedSessions_append, State.enter_connected,
      hperf.connected]
    cases d with
    | toBroker =>
      rw [State.enter_phase]
      exact hturn.stage hs.stage fun seen hp hnone => (hs.sees .toBroker seen hp).eq_first hnone
    | toClient =>
      obtain ⟨-, hconnects, hstored, -⟩ := hturn.ne_storing hs.idle
      rw [hperf.enter_phase_of_ne q (c := .toBroker) nofun, hconnects, hstored]
      simpa using hs.stage
  · cases d with
    | toBroker => rw [hperf.enter_phase_of_ne q (c := .toClient) nofun]; exact hs.idle
    | toClient => rw [State.enter_phase]; exact (hturn.ne_storing hs.idle).1
  · intro c seen hc
    rw [hperf.enter_journal]
    exact hs.sees_enter hturn hperf hc
  · intro hrepeats
    rw [hperf.enter_journal] at hrepeats
    exact hs.refuses_enter hturn hperf hrepeats

/-- What is known does not depend on the connections, nor on whether the relay stops or how it ends.
-/
theorem Knows.of_eq (hs : Knows g first s) (hjournal : t.journal = s.journal)
    (hsession : t.session = s.session) (hconnected : t.connected = s.connected)
    (hphase : ∀ d, t.phase d = s.phase d) : Knows g first t := by
  have haccounts : Accounts g .toBroker t :=
    hs.accounts.of_eq (by rw [hjournal]) (by rw [hjournal]) (by rw [hjournal]) (hphase _)
  obtain ⟨session, stage, idle, sees, repeats, -⟩ := hs
  refine ⟨?_, ?_, ?_, ?_, ?_, haccounts⟩
  · rwa [hjournal, hsession]
  · rwa [hjournal, hphase, hconnected]
  · rwa [hphase]
  · intro d seen
    rw [hjournal, hphase]
    exact sees d seen
  · rwa [hjournal, hphase]

theorem pump?_last {k : List Entry} (hk : ∀ e ∈ k, e.isLast = true) (d : Direction) :
    ∀ e ∈ k, e.pump? ≠ some d := by
  intro e he
  have hlast := hk e he
  cases e with
  | left octets => nofun
  | disconnected session reply => nofun
  | _ => cases hlast

theorem Repeats.of_last {j k : List Entry} (hk : ∀ e ∈ k, e.isLast = true) (h : Repeats (j ++ k)) :
    Repeats j := by
  obtain ⟨before, after, f, c, hj, hf, hdone⟩ := h
  have htook : .took .toBroker f ∉ k := fun hmem => nomatch hk _ hmem
  rcases List.append_eq_append_iff.mp hj with ⟨l, rfl, rfl⟩ | ⟨l, rfl, hl⟩
  · exact absurd (by simp) htook
  · cases l with
    | nil =>
      rw [List.nil_append] at hl
      exact absurd (hl ▸ List.mem_cons_self) htook
    | cons a l =>
      obtain ⟨rfl, -⟩ := List.cons.inj hl
      exact ⟨before, l, f, c, rfl, hf, hdone⟩

/-- The end of a relay tells nothing of what the pumps do. -/
theorem Knows.concludes (hs : Knows g first s) (h : Concludes s t) : Knows g first t := by
  have haccounts := hs.accounts.concludes h
  obtain ⟨k, hk, hlast⟩ := h.journal
  refine ⟨?_, ?_, by rw [h.phase]; exact hs.idle, ?_, ?_, haccounts⟩
  · rw [h.session, hk, sessionAfter_of_none (storedSessions_last hlast)]
    exact hs.session
  · rw [h.phase, h.connected, hk, connects_append, connects_last hlast, storedSessions_append,
      storedSessions_last hlast, List.append_nil, List.append_nil]
    exact hs.stage
  · intro d seen hd
    rw [h.phase] at hd
    rw [hk]
    exact (hs.sees d seen hd).append (pump?_last hlast d)
  · intro hrepeats
    rw [h.phase]
    rw [hk] at hrepeats
    exact hs.repeats (hrepeats.of_last hlast)

theorem Knows.start (g : Gate σ) (first : Session) (hooks : σ) :
    Knows g first (State.start first hooks) := by
  refine ⟨rfl, .fresh fun _ _ => nofun, fun _ _ => nofun, ?_, ?_, ?_⟩
  · intro d seen h
    cases d <;> cases h
  · rintro ⟨before, after, f, c, h, -⟩
    exact absurd h.symm (by simp [State.start])
  · exact ⟨[], [], [], rfl, rfl, rfl, rfl, rfl⟩

theorem run_knows (g : Gate σ) (first : Session) (hooks : σ) (events : List Event) :
    Knows g first (run g (.start first hooks) events) ∧
      Orderly (Admits first) (run g (.start first hooks) events).journal := by
  refine run_orderly (.start g first hooks) (.nil _) Knows.of_eq Knows.moves
    (fun hs hturn hperf => hs.admits hturn hperf) Knows.concludes (fun _ => trivial)
    (fun hs k reply hk => ?_) events
  exact hs.session.trans (sessionAfter_of_none (storedSessions_last hk)).symm

/-- How many steps a pump has left at most until it has refused a CONNECT that comes too late. -/
def Phase.refusal : Phase → Nat
  | .authorizing none _ => 2
  | .authorizing (some _) _ => 1
  | _ => 0

theorem Phase.refusal_le (p : Phase) : p.refusal ≤ 2 := by
  unfold Phase.refusal
  split <;> omega

theorem Phase.Refuses.of_refusal {p : Phase} (hp : p.Refuses) (hleft : p.refusal = 0) :
    p = .ended (some (.unauthorized secondConnect)) := by
  cases p with
  | authorizing seen f => cases seen <;> cases hleft
  | ended fault => exact congrArg _ hp
  | _ => cases hp

theorem Knows.refusal_pump (hs : Knows g first s) (h : Repeats s.journal) :
    ((pump g .toBroker s).phase .toBroker).refusal ≤ (s.phase .toBroker).refusal - 1 := by
  have hrefuses := hs.repeats h
  have hconnected := hs.connected h
  cases hp : s.phase .toBroker with
  | authorizing seen f =>
    rw [hp] at hrefuses hconnected
    obtain ⟨c, hf⟩ := hrefuses
    cases seen with
    | none => simp [pump, hp, look, Phase.refusal]
    | some seen => simp [pump, hp, authorize, hf, authorizeConnect, hconnected rfl, Phase.refusal]
  | ended fault => simp [pump, hp, Phase.refusal]
  | _ => rw [hp] at hrefuses; cases hrefuses

/-- A CONNECT that comes too late ends the pump to the broker with a refusal once it has had two
more steps. -/
theorem run_refuses (g : Gate σ) (first : Session) (hooks : σ) (events more : List Event)
    (h : Repeats (run g (.start first hooks) events).journal)
    (hmore : 2 ≤ more.count (.pump .toBroker)) :
    (run g (run g (.start first hooks) events) more).phase .toBroker =
      .ended (some (.unauthorized secondConnect)) := by
  -- from here on every state is one that a run reaches and in which that CONNECT has been taken
  let P (s : State σ) := ∃ events, s = run g (.start first hooks) events ∧ Repeats s.journal
  have keeps (s : State σ) (e : Event) (hs : P s) : P (step g s e) := by
    obtain ⟨events, rfl, hr⟩ := hs
    obtain ⟨k, hk⟩ := run_journal g (run g (.start first hooks) events) [e]
    refine ⟨events ++ [e], by rw [run_append]; rfl, ?_⟩
    rw [show step g _ e = run g _ [e] from rfl, ← hk]
    exact hr.append k
  have lowers (s : State σ) (hs : P s) :
      ((pump g .toBroker s).phase .toBroker).refusal ≤ (s.phase .toBroker).refusal - 1 := by
    obtain ⟨events, rfl, hr⟩ := hs
    exact (run_knows g first hooks events).1.refusal_pump hr
  have hcount := run_countdown keeps lowers ⟨events, rfl, h⟩ more
  have hle := Phase.refusal_le ((run g (.start first hooks) events).phase .toBroker)
  obtain ⟨k, hk⟩ := run_journal g (run g (.start first hooks) events) more
  rw [← run_append] at hcount hk ⊢
  refine ((run_knows g first hooks (events ++ more)).1.repeats ?_).of_refusal (by omega)
  rw [← hk]
  exact h.append k

theorem Stage.stored {p : Phase} {connected : Bool} {asked : List (Session × Reply Session)}
    {stored : List Session} (h : Stage first p connected asked stored) :
    asked.length ≤ 1 ∧ (stored = [] ∨
      ∃ c session, asked = [(first.withConnect c, .done session)] ∧ stored = [session]) := by
  cases h with
  | fresh _ => exact ⟨by simp, .inl rfl⟩
  | granted c session f => exact ⟨by simp, .inl rfl⟩
  | failed c reply _ _ => exact ⟨by simp, .inl rfl⟩
  | fixed c session _ => exact ⟨by simp, .inr ⟨c, session, rfl, rfl⟩⟩

/-- In every run at most one CONNECT is asked about, and the session is that of the start until it
is the one which the answer gives. Every entry is admitted by the entries before it, and a CONNECT
that comes too late ends the pump that has taken it. -/
theorem session_fixed_once (g : Gate σ) (first : Session) (hooks : σ) (events : List Event) :
    let s := run g (.start first hooks) events
    Answered g hooks s.journal s.hooks ∧
    (∀ before e after, s.journal = before ++ e :: after → Admits first before e) ∧
    s.session = sessionAfter first s.journal ∧
    (connects s.journal).length ≤ 1 ∧
    (storedSessions s.journal = [] ∨ ∃ c session,
      connects s.journal = [(first.withConnect c, .done session)] ∧
      storedSessions s.journal = [session]) ∧
    (∀ earlier later, events = earlier ++ later →
      (run g (.start first hooks) earlier).session = first ∨
      storedSessions s.journal = [(run g (.start first hooks) earlier).session]) ∧
    (Repeats s.journal → ∀ more, 2 ≤ more.count (.pump .toBroker) →
      (run g s more).phase .toBroker = .ended (some (.unauthorized secondConnect))) := by
  intro s
  obtain ⟨hs, hj⟩ := run_knows g first hooks events
  obtain ⟨hasked, hstored⟩ := hs.stage.stored
  refine ⟨run_answered g first hooks events, hj, hs.session, hasked, hstored, ?_,
    fun h more => run_refuses g first hooks events more h⟩
  rintro earlier later rfl
  obtain ⟨hearlier, -⟩ := run_knows g first hooks earlier
  obtain ⟨k, hk⟩ := run_journal g (run g (.start first hooks) earlier) later
  rw [← run_append] at hk
  rw [hearlier.session, sessionAfter]
  rcases hearlier.stage.stored.2 with hnone | ⟨-, session, -, hone⟩
  · exact .inl (by rw [hnone]; rfl)
  · right
    rcases hstored with hnone | ⟨-, session', -, hone'⟩
    · rw [← hk, storedSessions_append, hone] at hnone
      cases hnone
    · rw [show storedSessions s.journal = [session'] from hone', hone]
      rw [← hk, storedSessions_append, hone] at hone'
      rw [(List.cons.inj hone').1]
      rfl

end MqttGateway.Relay
