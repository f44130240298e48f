import MqttGateway.Proofs.Relay.Identity
import MqttGateway.Proofs.Relay.Notices
/-!
# Notices mirror what is written

Main statement: in every run the notices that the hooks are given are those due for what was written
to the broker, one for one and in order; the last may still have to be given. Each comes right after
its packet was written, and once a hook has not taken a notice the pump to the broker does nothing
more.
-/
namespace MqttGateway.Relay

variable {σ : Type} {g : Gate σ} {s t : State σ} {d : Direction} {first : Session}

/-! ## What the pump to the broker has noted -/

theorem own_append (d : Direction) (j k : List Entry) : own d (j ++ k) = own d j ++ own d k :=
  List.filter_append ..

theorem own_last {k : List Entry} (hk : ∀ e ∈ k, e.isLast = true) : own d k = [] :=
  List.filter_eq_nil_iff.mpr fun e he => by simpa using pump?_last hk d e he

theorem own_eq_self {e : Option Entry} (h : ∀ a ∈ e, a.pump? = some d) :
    own d e.toList = e.toList :=
  List.filter_eq_self.mpr fun a ha => decide_eq_true (h a (Option.mem_toList.mp ha))

theorem own_eq_nil {c : Direction} {e : Option Entry} (h : ∀ a ∈ e, a.pump? = some c)
    (hcd : c ≠ d) : own d e.toList = [] := by
  refine List.filter_eq_nil_iff.mpr fun a ha => ?_
  rw [h a (Option.mem_toList.mp ha)]
  simpa using hcd

/-- What a pump has written is among what it has noted itself. -/
theorem forwarded_own (d : Direction) (j : List Entry) : forwarded d (own d j) = forwarded d j := by
  induction j with
  | nil => rfl
  | cons e j ih =>
    rw [← List.singleton_append, own_append, forwarded_append, forwarded_append, ih]
    congr 1
    by_cases he : e.pump? = some d
    · simp [own, he]
    · have hnone : own d [e] = [] := by simp [own, he]
      rw [hnone]
      cases e with
      | wrote c f octets =>
        have hcd : c ≠ d := fun h => he (h ▸ rfl)
        simp [forwarded, hcd]
      | _ => rfl

/-- What a pump owes is the notice of what it has written last. -/
theorem Phase.Trails.getLast? {p : Phase} {j : List Entry} {notice : Notice}
    (h : p.Trails (own .toBroker j)) (howed : p.owed = some notice) : ∃ f octets,
      (forwarded .toBroker j).getLast? = some (f, octets) ∧ noticeFor octets = some notice := by
  cases p with
  | notifying seen f =>
    obtain ⟨earlier, octets, hown, hnotice⟩ := h
    refine ⟨f, octets, ?_, hnotice.trans howed⟩
    rw [← forwarded_own, hown, forwarded_append]
    cases seen <;> exact List.getLast?_concat
  | _ => cases howed

/-! ## Runs -/

structure Mirrors (g : Gate σ) (first : Session) (s : State σ) : Prop where
  knows : Knows g first s
  genuine : (s.phase .toBroker).Genuine
  owed : due s.journal = given .toBroker s.journal ++ (s.phase .toBroker).owed.toList
  trails : (s.phase .toBroker).Trails (own .toBroker s.journal)
  lost : Lost s.journal → (s.phase .toBroker).isOver = true
  idle : ∀ seen f, s.phase .toClient ≠ .notifying seen f
  silent : given .toClient s.journal = []

/-- How an entry goes together with the journal before it: once a notice has been lost the pump to
the broker has stopped, it takes and asks only when all notices have been given, and it gives one
right after it has written what the notice is about. -/
structure InStep (j : List Entry) (e : Entry) : Prop where
  heard : e.pump? = some .toBroker → ¬ Lost j
  settled : e.Engages → due j = given .toBroker j
  told : ∀ d call notice reply, e = .called d call → call.notice? = some (notice, reply) →
    d = .toBroker ∧ ∃ earlier f octets,
      own .toBroker j = earlier ++ [.wrote .toBroker f octets, .looked .toBroker call.session] ∧
      noticeFor octets = some notice

theorem InStep.of_last {j : List Entry} {e : Entry} (he : e.isLast = true) : InStep j e := by
  cases e with
  | left octets => exact ⟨nofun, nofun, fun _ _ _ _ => nofun⟩
  | disconnected session reply => exact ⟨nofun, nofun, fun _ _ _ _ => nofun⟩
  | _ => cases he

theorem Mirrors.inStep (hs : Mirrors g first s) {e : Entry} {q : Phase}
    (h : Turn g s.connected d (s.phase d) (some e) q) (hperf : Performs g d s (some e) t) :
    InStep s.journal e := by
  have hpump := hs.knows.pump? h hperf e rfl
  cases d with
  | toBroker =>
    constructor
    · intro _ hlost
      have hrunning := h.not_over
      rw [hs.lost hlost] at hrunning
      cases hrunning
    · intro he
      rw [hs.owed, h.owed_eq_none he, Option.toList_none, List.append_nil]
    · rintro d call notice reply rfl hcall
      obtain rfl : d = .toBroker := Option.some.inj hpump
      obtain ⟨seen, f, hp, hnotifies, -⟩ := h.notified hcall
      have htrails := hs.trails
      rw [hp] at htrails
      obtain ⟨earlier, octets, hown, hoctets⟩ := htrails
      obtain ⟨notice', hpacket, hnotice⟩ := hnotifies.notice?
      cases hcall.symm.trans hnotice
      rw [hnotifies.session.2]
      exact ⟨rfl, earlier, f, octets, hown, hoctets.trans hpacket⟩
  | toClient =>
    constructor
    · rw [hpump]
      nofun
    · rintro (_ | _) <;> cases hpump
    · rintro d call notice reply rfl hcall
      obtain rfl : d = .toClient := Option.some.inj hpump
      rw [(h.quiet hs.idle).2 call rfl] at hcall
      cases hcall

/-- What one pump notes gives no notice of the other. -/
theorem Performs.given_elsewhere {c : Direction} {e : Option Entry} (h : Performs g c s e t)
    (hcd : c ≠ d) : given d e.toList = [] := by
  rw [given, (h.elsewhere hcd).2.1]
  rfl

theorem Mirrors.moves_toBroker (hi : ∀ i, g.interceptor = some i → i.AddsNothingRaw)
    (hs : Mirrors g first s) (h : Moves g .toBroker s t) : Mirrors g first t := by
  have hknows := hs.knows.moves h
  obtain ⟨e, q, r, hturn, hperf, rfl⟩ := h
  have htook (f : Frame) (he : e = some (.took .toBroker f)) : f.Genuine := by
    subst he
    cases hperf with
    | take hrunning htake => exact .of_take htake
  have hcall (call : Call) (he : e = some (.called .toBroker call)) :
      call.AnsweredBy g s.hooks r.hooks := by
    subst he
    exact hperf.answeredBy
  refine ⟨hknows, ?_, ?_, ?_, ?_, ?_, ?_⟩
  · rw [State.enter_phase]
    exact hturn.genuine hi htook hcall hs.genuine
  · rw [hperf.enter_journal, due_append, given_append, hs.owed, State.enter_phase,
      List.append_assoc, hturn.owed hs.genuine, List.append_assoc]
  · rw [hperf.enter_journal, own_append, own_eq_self (hs.knows.pump? hturn hperf),
      State.enter_phase]
    exact hturn.trails hs.genuine hs.trails
  · rw [hperf.enter_journal, lost_append, State.enter_phase]
    rintro (hlost | hlost)
    · -- a pump whose notice was lost is over, so it has not made this move
      have hrunning := hturn.not_over
      rw [hs.lost hlost] at hrunning
      cases hrunning
    · exact hturn.lost hlost
  · rw [hperf.enter_phase_of_ne q (c := .toClient) nofun]
    exact hs.idle
  · rw [hperf.enter_journal, given_append, hs.silent, hperf.given_elsewhere (d := .toClient) nofun]
    rfl

theorem Mirrors.moves_toClient (hs : Mirrors g first s) (h : Moves g .toClient s t) :
    Mirrors g first t := by
  have hknows := hs.knows.moves h
  obtain ⟨e, q, r, hturn, hperf, rfl⟩ := h
  have hpump := hs.knows.pump? hturn hperf
  obtain ⟨-, hcalls, hforwarded⟩ := hperf.elsewhere (d := .toBroker) nofun
  obtain ⟨hidle, hquiet⟩ := hturn.quiet hs.idle
  have hphase : (r.enter .toClient q).phase .toBroker = s.phase .toBroker :=
    hperf.enter_phase_of_ne q nofun
  have hdue : due e.toList = [] := by
    rw [due, hforwarded]
    rfl
  have hgiven : given .toBroker e.toList = [] := hperf.given_elsewhere nofun
  refine ⟨hknows, ?_, ?_, ?_, ?_, ?_, ?_⟩
  · rw [hphase]
    exact hs.genuine
  · rw [hperf.enter_journal, due_append, given_append, hdue, hgiven, hphase, List.append_nil,
      List.append_nil]
    exact hs.owed
  · rw [hperf.enter_journal, own_append, own_eq_nil hpump (by decide), hphase, List.append_nil]
    exact hs.trails
  · rw [hperf.enter_journal, lost_append, hphase]
    rintro (hlost | ⟨call, hmem, -⟩)
    · exact hs.lost hlost
    · rw [hcalls] at hmem
      cases hmem
  · rw [State.enter_phase]
    exact hidle
  · rw [hperf.enter_journal, given_append, hs.silent, List.nil_append]
    cases e with
    | none => rfl
    | some a =>
      cases a with
      | called c call =>
        obtain rfl : c = .toClient := Option.some.inj (hpump _ rfl)
        rw [Option.toList_some, given_called, hquiet call rfl]
        rfl
      | _ => rfl

theorem Mirrors.moves (hi : ∀ i, g.interceptor = some i → i.AddsNothingRaw)
    (hs : Mirrors g first s) (h : Moves g d s t) : Mirrors g first t := by
  cases d with
  | toBroker => exact hs.moves_toBroker hi h
  | toClient => exact hs.moves_toClient h

theorem Mirrors.of_eq (hs : Mirrors g first s) (hjournal : t.journal = s.journal)
    (hsession : t.session = s.session) (hconnected : t.connected = s.connected)
    (hphase : ∀ d, t.phase d = s.phase d) : Mirrors g first t := by
  refine ⟨hs.knows.of_eq hjournal hsession hconnected hphase, ?_, ?_, ?_, ?_, ?_, ?_⟩
  · rw [hphase]; exact hs.genuine
  · rw [hjournal, hphase]; exact hs.owed
  · rw [hjournal, hphase]; exact hs.trails
  · rw [hjournal, hphase]; exact hs.lost
  · rw [hphase]; exact hs.idle
  · rw [hjournal]; exact hs.silent

theorem Mirrors.concludes (hs : Mirrors g first s) (h : Concludes s t) : Mirrors g first t := by
  have hknows := hs.knows.concludes h
  obtain ⟨k, hk, hlast⟩ := h.journal
  have hgiven (d : Direction) : given d t.journal = given d s.journal := by
    rw [hk, given_append, given, given, calls_last hlast, List.filterMap_nil, List.append_nil]
  have hdue : due t.journal = due s.journal := by
    rw [hk, due_append, due, due, forwarded_last hlast, List.filterMap_nil, List.append_nil]
  refine ⟨hknows, ?_, ?_, ?_, ?_, ?_, ?_⟩
  · rw [h.phase]; exact hs.genuine
  · rw [hdue, hgiven, h.phase]; exact hs.owed
  · rw [hk, own_append, own_last hlast, List.append_nil, h.phase]; exact hs.trails
  · rw [hk, lost_append, h.phase]
    rintro (hlost | ⟨call, hmem, -⟩)
    · exact hs.lost hlost
    · rw [calls_last hlast] at hmem
      cases hmem
  · rw [h.phase]; exact hs.idle
  · rw [hgiven]; exact hs.silent

theorem Mirrors.start (g : Gate σ) (first : Session) (hooks : σ) :
    Mirrors g first (State.start first hooks) :=
  ⟨.start g first hooks, fun _ => nofun, rfl, trivial,
    fun ⟨_, hmem, _⟩ => absurd hmem List.not_mem_nil, fun _ _ => nofun, rfl⟩

theorem run_mirrors (first : Session) (hooks : σ) (events : List Event)
    (hi : ∀ i, g.interceptor = some i → i.AddsNothingRaw) :
    Mirrors g first (run g (.start first hooks) events) ∧
      Orderly InStep (run g (.start first hooks) events).journal :=
  run_orderly (.start g first hooks) (.nil _) Mirrors.of_eq (Mirrors.moves hi)
    (fun hs hturn hperf => hs.inStep hturn hperf) Mirrors.concludes (fun _ => .of_last rfl)
    (fun _ _ _ _ => .of_last rfl) events

/-- Whatever the order of its steps, a relay whose interceptor adds nothing raw gives the notices
that are due for what it has written to the broker, in that order and none but these; at most that of
the last packet has still to be given. Nobody is told of anything else, and after a notice that a
hook has not taken nothing more goes to the broker but the DISCONNECT of a relay that has ended. -/
theorem notices_mirror_writes (g : Gate σ) (first : Session) (hooks : σ) (events : List Event)
    (hi : ∀ i, g.interceptor = some i → i.AddsNothingRaw) :
    let s := run g (.start first hooks) events
    Answered g hooks s.journal s.hooks ∧
    (∃ last, (s.sink .toBroker).outlet.written =
      (forwarded .toBroker s.journal).flatMap (·.2) ++ last ∧
      (last = [] ∨ last = farewell ∧ s.outcome ≠ none)) ∧
    (∃ pending : Option Notice,
      due s.journal = given .toBroker s.journal ++ pending.toList ∧
      ∀ notice ∈ pending, ∃ f octets,
        (forwarded .toBroker s.journal).getLast? = some (f, octets) ∧
        noticeFor octets = some notice) ∧
    given .toClient s.journal = [] ∧
    ∀ before e after, s.journal = before ++ e :: after → InStep before e := by
  intro s
  obtain ⟨hs, hj⟩ := run_mirrors first hooks events hi
  obtain ⟨last, hwritten, hlast⟩ := (run_ends g first hooks events).written
    (run_wrote g first hooks events) .toBroker
  refine ⟨run_answered g first hooks events, ⟨last, hwritten, ?_⟩,
    ⟨(s.phase .toBroker).owed, hs.owed, fun notice => hs.trails.getLast?⟩, hs.silent, hj⟩
  exact hlast.imp_right fun h => ⟨h.2.1, h.2.2.1⟩

def marking : Gate Unit :=
  ⟨Policy.handler {} Unit, some fun _ f _ hooks =>
    match f.packet with
    | .publish p =>
      (.done (f.edit fun _ => .publish { p with payload := p.payload ++ [0x21] }), hooks)
    | _ => (.done f, hooks)⟩

theorem marking_addsNothingRaw (i : Interceptor Unit) (hi : marking.interceptor = some i) :
    i.AddsNothingRaw := by
  cases hi
  intro s f before f' after hf h
  cases hp : f.packet with
  | publish p =>
    simp only [hp, Prod.mk.injEq, Reply.done.injEq] at h
    obtain ⟨rfl, -⟩ := h
    exact ⟨hf.edit _, fun _ _ => nofun⟩
  | _ =>
    simp only [hp, Prod.mk.injEq, Reply.done.injEq] at h
    obtain ⟨rfl, -⟩ := h
    exact ⟨hf, fun _ _ _ => hp.symm⟩

def forwarding : List Event :=
  .peer .toBroker (.arrive [0x30, 0x04, 0x00, 0x01, 0x74, 0x78]) ::
    List.replicate 6 (.pump .toBroker)

/-- What is told of a packet is what the broker can read of it. -/
theorem notices_mirror_marked :
    (∀ i, marking.interceptor = some i → i.AddsNothingRaw) ∧
    let s := run marking (.start {} ()) forwarding
    given .toBroker s.journal = [] ∧ due s.journal = [.published ⟨"t", [0x78, 0x21]⟩] ∧
    ∃ f octets, (forwarded .toBroker s.journal).getLast? = some (f, octets) ∧
      noticeFor octets = some (.published ⟨"t", [0x78, 0x21]⟩) := by
  refine ⟨marking_addsNothingRaw, ?_⟩
  intro s
  obtain ⟨-, -, ⟨pending, hdue, hpending⟩, -, -⟩ :=
    notices_mirror_writes marking {} () forwarding marking_addsNothingRaw
  have hgiven : given .toBroker s.journal = [] := by decide +kernel
  have hall : due s.journal = [.published ⟨"t", [0x78, 0x21]⟩] := by decide +kernel
  rw [hall, hgiven, List.nil_append] at hdue
  exact ⟨hgiven, hall, hpending _ (Option.mem_toList.mp (hdue ▸ List.mem_singleton_self _))⟩

end MqttGateway.Relay
