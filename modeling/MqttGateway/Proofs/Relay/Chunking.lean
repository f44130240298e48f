import Mathlib.Logic.Function.Iterate
import MqttGateway.Proofs.Relay.Foresight
import MqttGateway.Proofs.Relay.Stopping
/-!
# How a stream is cut

Main statement: as long as the other peer does nothing, all that a relay does with what a peer sends
depends on the octets alone. However these are cut, whenever they arrive, and in whatever order the
relay takes its steps, it comes to rest in one and the same state.
-/
namespace MqttGateway.Relay

variable {σ : Type} {g : Gate σ} {s t : State σ} {d : Direction} {events : List Event} {e : Event}

/-! ## One thing at a time -/

/-- The pump against a direction has nothing to do before it is told to stop, and it is not told
before the pump of that direction is over. -/
structure Alone (d : Direction) (s : State σ) : Prop where
  other : (s.phase d.opposite).isOver = true ∨
    s.phase d.opposite = .reading ∧ (s.source d.opposite).inlet.take = .waiting
  first : s.exits ≠ [] ∨ s.stopped = true → (s.phase d).isOver = true

def turnOf (d : Direction) (s : State σ) : Event :=
  if (s.phase d).isOver = false then .pump d
  else if s.stopped = false then .supervise
  else if (s.phase d.opposite).isOver = false then .pump d.opposite
  else .conclude

def advance (g : Gate σ) (d : Direction) (s : State σ) : State σ :=
  step g s (turnOf d s)

theorem turnOf_cases (d : Direction) (s : State σ) :
    (s.phase d).isOver = false ∧ turnOf d s = .pump d ∨
    (s.phase d).isOver = true ∧ (s.stopped = false ∧ turnOf d s = .supervise ∨
      s.stopped = true ∧ ((s.phase d.opposite).isOver = false ∧ turnOf d s = .pump d.opposite ∨
        (s.phase d.opposite).isOver = true ∧ turnOf d s = .conclude)) := by
  unfold turnOf
  cases (s.phase d).isOver <;> cases s.stopped <;> cases (s.phase d.opposite).isOver <;> simp

theorem turnOf_inner (d : Direction) (s : State σ) : (turnOf d s).Inner := by
  rcases turnOf_cases d s with ⟨-, h⟩ | ⟨-, ⟨-, h⟩ | ⟨-, ⟨-, h⟩ | ⟨-, h⟩⟩⟩ <;>
    exact fun _ _ => h ▸ nofun

/-- Until it is told to stop the pump against the direction rests. -/
theorem Alone.rests (hs : Alone d s) (hrun : s.stopped = false) : Rests d.opposite s := by
  rcases hs.other with hover | ⟨hp, htake⟩
  · exact .inl hover
  · exact .inr ⟨hp, hrun, htake⟩

theorem Alone.running (hs : Alone d s) (hrunning : (s.phase d).isOver = false) :
    s.exits = [] ∧ s.stopped = false := by
  constructor
  · by_contra hne
    rw [hs.first (.inl hne)] at hrunning
    cases hrunning
  · cases hstop : s.stopped with
    | false => rfl
    | true =>
      rw [hs.first (.inr hstop)] at hrunning
      cases hrunning

theorem supervise_of_running (hexits : s.exits = []) (hover : s.isOver = false) :
    supervise s = s :=
  if_pos ⟨hexits, by rw [hover]; rfl⟩

theorem supervise_of_stopped (hstop : s.stopped = true) : supervise s = s := by
  unfold supervise
  split
  · rfl
  · rw [← hstop]

/-- Whatever step is taken, it does nothing or is the one with which the relay can go on. -/
theorem Alone.step_eq (hs : Alone d s) (he : e.Inner) : step g s e = s ∨ e = turnOf d s := by
  have hpump (c : Direction) (hrests : Rests c s) : Relay.step g s (.pump c) = s := pump_rests g hrests
  rcases turnOf_cases d s with
    ⟨hrunning, hturn⟩ | ⟨hover, ⟨hrun, hturn⟩ | ⟨hstop, ⟨hother, hturn⟩ | ⟨hother, hturn⟩⟩⟩ <;>
    rw [hturn]
  · obtain ⟨hexits, hrun⟩ := hs.running hrunning
    cases e with
    | peer c h => exact absurd rfl (he c h)
    | pump c =>
      rcases c.eq_or_opposite d with rfl | rfl
      · exact .inr rfl
      · exact .inl (hpump _ (hs.rests hrun))
    | supervise => exact .inl (supervise_of_running hexits (State.not_over_of_running hrunning))
    | conclude => exact .inl (if_neg (by simp [hrun]))
  · cases e with
    | peer c h => exact absurd rfl (he c h)
    | pump c =>
      rcases c.eq_or_opposite d with rfl | rfl
      · exact .inl (hpump _ (.inl hover))
      · exact .inl (hpump _ (hs.rests hrun))
    | supervise => exact .inr rfl
    | conclude => exact .inl (if_neg (by simp [hrun]))
  · cases e with
    | peer c h => exact absurd rfl (he c h)
    | pump c =>
      rcases c.eq_or_opposite d with rfl | rfl
      · exact .inl (hpump _ (.inl hover))
      · exact .inr rfl
    | supervise => exact .inl (supervise_of_stopped hstop)
    | conclude =>
      have hrunning : s.isOver = false := State.not_over_of_running hother
      exact .inl (if_neg (by simp [hrunning]))
  · cases e with
    | peer c h => exact absurd rfl (he c h)
    | pump c =>
      rcases c.eq_or_opposite d with rfl | rfl
      · exact .inl (hpump _ (.inl hover))
      · exact .inl (hpump _ (.inl hother))
    | supervise => exact .inl (supervise_of_stopped hstop)
    | conclude => exact .inr rfl

theorem Alone.of_eq (hs : Alone d s) (hphase : ∀ c, t.phase c = s.phase c)
    (hinlet : (t.source d.opposite).inlet = (s.source d.opposite).inlet)
    (hfirst : t.exits ≠ [] ∨ t.stopped = true → (s.phase d).isOver = true) : Alone d t := by
  refine ⟨?_, ?_⟩
  · rw [hphase, hinlet]
    exact hs.other
  · rw [hphase]
    exact hfirst

/-- The pump of the direction has reported nothing before it is over. -/
theorem Alone.pump (hs : Alone d s) : Alone d (pump g d s) := by
  rcases pump_moves g d s with h | hmoves
  · rwa [pump_rests g h]
  · obtain ⟨hexits, hrun⟩ := hs.running hmoves.not_over
    have hinlet : ((Relay.pump g d s).source d.opposite).inlet = (s.source d.opposite).inlet :=
      step_inlet (e := .pump d) (fun h => d.opposite_ne (Event.pump.inj h).symm) (by simp)
    obtain ⟨e, q, r, -, hperf, heq⟩ := hmoves
    rw [heq] at hinlet ⊢
    refine ⟨?_, ?_⟩
    · rw [hperf.enter_phase_of_ne q d.opposite_ne, hinlet]
      exact hs.other
    · rw [State.enter_exits, State.enter_stopped, State.enter_phase, hperf.exits, hperf.stopped,
        hexits, hrun]
      rintro (hreport | hstop)
      · cases q with
        | ended fault => rfl
        | _ => exact absurd rfl hreport
      · cases hstop

/-- The other pump only ends, once it has been told to stop. -/
theorem Alone.ends_opposite (hs : Alone d s) (hstop : s.stopped = true)
    (hrunning : (s.phase d.opposite).isOver = false) :
    Relay.pump g d.opposite s = s.enter d.opposite (.ended none) := by
  rcases hs.other with hover | ⟨hp, -⟩
  · rw [hrunning] at hover
    cases hover
  · exact pump_ends hp hstop

theorem Alone.pump_opposite (hs : Alone d s) : Alone d (Relay.pump g d.opposite s) := by
  cases hstop : s.stopped with
  | false => rwa [pump_rests g (hs.rests hstop)]
  | true =>
    cases hrunning : (s.phase d.opposite).isOver with
    | true => rwa [pump_rests g (.inl hrunning)]
    | false =>
      rw [hs.ends_opposite hstop hrunning]
      refine ⟨.inl (by rw [State.enter_phase]; rfl), fun _ => ?_⟩
      rw [State.enter_phase_of_ne _ _ _ d.opposite_ne.symm]
      exact hs.first (.inr hstop)

theorem Alone.step (hs : Alone d s) (he : e.Feeds d) : Alone d (step g s e) := by
  cases e with
  | peer c h =>
    obtain ⟨rfl, -⟩ := he c h rfl
    refine hs.of_eq (fun _ => by simp [Relay.step]) ?_ (by simpa [Relay.step] using hs.first)
    rw [Relay.step, State.setSource_source_of_ne _ _ _ c.opposite_ne]
  | pump c =>
    rcases c.eq_or_opposite d with rfl | rfl
    · exact hs.pump
    · exact hs.pump_opposite
  | supervise =>
    refine hs.of_eq (supervise_phase s) (by rw [Relay.step, supervise_source]) ?_
    rintro (hexits | hstop)
    · exact hs.first (.inl (by simpa [Relay.step] using hexits))
    · simp only [Relay.step, supervise] at hstop
      split at hstop
      case isTrue => exact hs.first (.inr hstop)
      case isFalse h =>
        by_cases hexits : s.exits = []
        · have hover : s.isOver = true := by simpa [hexits] using h
          exact (State.isOver_iff s).mp hover d
        · exact hs.first (.inl hexits)
  | conclude =>
    simp only [Relay.step]
    split
    case isFalse => exact hs
    case isTrue =>
      have hend := conclude_concludes g s
      refine hs.of_eq hend.phase (hend.inlet d.opposite) ?_
      rw [hend.exits, hend.stopped]
      exact hs.first

/-! ## Coming to rest -/

def Settled (g : Gate σ) (s : State σ) : Prop :=
  ∀ e, e.Inner → Relay.step g s e = s

theorem settled_start (g : Gate σ) (session : Session) (hooks : σ) :
    Settled g (.start session hooks) := by
  intro e he
  cases e with
  | peer c h => exact absurd rfl (he c h)
  | pump c => cases c <;> rfl
  | _ => rfl

/-- A relay at rest waits for both peers until one of its pumps is over, and then both are. -/
theorem Settled.alone (hs : Settled g s) (d : Direction) : Alone d s := by
  have hrests (c : Direction) : Rests c s := rests_of_pump_eq (hs (.pump c) nofun)
  have hstopped : s.stopped = true → (s.phase d).isOver = true := by
    intro hstop
    rcases hrests d with hover | ⟨-, hrun, -⟩
    · exact hover
    · rw [hstop] at hrun
      cases hrun
  refine ⟨?_, ?_⟩
  · rcases hrests d.opposite with hover | ⟨hp, -, htake⟩
    · exact .inl hover
    · exact .inr ⟨hp, htake⟩
  · rintro (hreport | hstop)
    · have hsupervised : supervise s = s := hs .supervise nofun
      have hstop : (supervise s).stopped = true := by simp [supervise, hreport]
      exact hstopped (hsupervised ▸ hstop)
    · exact hstopped hstop

theorem Alone.settled_iff (hs : Alone d s) : Settled g s ↔ advance g d s = s := by
  constructor
  · exact fun h => h _ (turnOf_inner d s)
  · intro h e he
    rcases hs.step_eq (g := g) he with hsame | rfl
    · exact hsame
    · exact h

/-- How many steps are left at most until the relay rests. -/
def remaining (d : Direction) (s : State σ) : Nat :=
  weight d s + (s.phase d.opposite).left + (if s.stopped then 0 else 1) +
    (if s.outcome = none then 1 else 0)

theorem Alone.remaining_lt (hs : Alone d s) :
    advance g d s = s ∨ remaining d (advance g d s) < remaining d s := by
  unfold advance
  rcases turnOf_cases d s with
    ⟨hrunning, hturn⟩ | ⟨hover, ⟨hrun, hturn⟩ | ⟨hstop, ⟨hother, hturn⟩ | ⟨hother, hturn⟩⟩⟩ <;>
    rw [hturn]
  · rcases pump_moves g d s with hrests | hmoves
    · exact .inl (pump_rests g hrests)
    · refine .inr ?_
      have hlt := hmoves.weight_lt
      obtain ⟨e, q, r, -, hperf, heq⟩ := hmoves
      rw [heq] at hlt
      simp only [Relay.step, heq, remaining, State.enter_stopped, State.enter_outcome,
        hperf.stopped, hperf.outcome, hperf.enter_phase_of_ne q d.opposite_ne]
      omega
  · simp only [Relay.step, supervise]
    split
    case isTrue => exact .inl rfl
    case isFalse =>
      refine .inr ?_
      have hsame : weight d { s with stopped := true } = weight d s ∧
          ({ s with stopped := true } : State σ).phase d.opposite = s.phase d.opposite := by
        cases d <;> exact ⟨rfl, rfl⟩
      simp only [remaining, hsame.1, hsame.2, hrun]
      simp
  · refine .inr ?_
    have hended : Phase.left (.ended none) = 0 := rfl
    have hleft : 0 < (s.phase d.opposite).left := by
      refine Nat.pos_of_ne_zero fun hzero => ?_
      rw [Phase.isOver_of_left hzero] at hother
      cases hother
    simp only [Relay.step, hs.ends_opposite hstop hother, remaining, weight, State.enter_source,
      State.enter_stopped, State.enter_outcome, State.enter_phase,
      State.enter_phase_of_ne _ _ _ d.opposite_ne.symm, hended]
    omega
  · simp only [Relay.step]
    split
    case isFalse => exact .inl rfl
    case isTrue h =>
      refine .inr ?_
      have hend := conclude_concludes g s
      simp only [Bool.and_eq_true, Option.isNone_iff_eq_none] at h
      simp only [remaining, weight, hend.inlet, hend.phase, hend.stopped, if_neg hend.outcome,
        if_pos h.2]
      omega

/-- The relay comes to rest without the peers. -/
theorem Alone.settles (g : Gate σ) (hs : Alone d s) :
    ∃ more, (∀ e ∈ more, Event.Inner e) ∧ Settled g (run g s more) := by
  induction hn : remaining d s using Nat.strongRecOn generalizing s with
  | ind n ih =>
    rcases hs.remaining_lt (g := g) with hrest | hlt
    · exact ⟨[], by simp, hs.settled_iff.mpr hrest⟩
    · have hinner := turnOf_inner d s
      obtain ⟨more, hmore, hsettled⟩ :=
        ih _ (hn ▸ hlt) (s := advance g d s) (hs.step (hinner.feeds d)) rfl
      exact ⟨turnOf d s :: more, List.forall_mem_cons.mpr ⟨hinner, hmore⟩, hsettled⟩

/-- A run comes to what the relay would come to, in some number of steps, if everything had arrived
at the start. -/
theorem Alone.run_eq (hs : Alone d s) (hfeeds : ∀ e ∈ events, e.Feeds d) :
    Alone d (run g s events) ∧ ∃ n, run g s events = (advance g d)^[n] (foreseen d events s) := by
  induction events generalizing s with
  | nil => exact ⟨hs, 0, (foreseen_nil d s).symm⟩
  | cons e events ih =>
    obtain ⟨hfeed, hfeeds⟩ := List.forall_mem_cons.mp hfeeds
    obtain ⟨halone, n, hrun⟩ := ih (s := Relay.step g s e) (hs.step hfeed) hfeeds
    refine ⟨halone, ?_⟩
    rw [run, List.foldl_cons, ← run, hrun]
    by_cases hpeer : ∃ c h, e = .peer c h
    · obtain ⟨c, h, rfl⟩ := hpeer
      exact ⟨n, by rw [foreseen_peer (g := g) hfeed]⟩
    · have hinner : e.Inner := fun c h heq => hpeer ⟨c, h, heq⟩
      rw [foreseen_cons hinner]
      rcases step_foreseen (g := g) (s := s) hfeeds hinner with hsame | hsame
      · exact ⟨n, by rw [hsame]⟩
      · rcases hs.step_eq (g := g) hinner with hnone | hturn
        · exact ⟨n, by rw [hnone]⟩
        · have hadvance : advance g d (foreseen d events s) =
              foreseen d events (Relay.step g s e) := by
            have hsameTurn : turnOf d (foreseen d events s) = turnOf d s := by
              simp [turnOf, foreseen]
            rw [advance, hsameTurn, ← hturn, hsame]
          exact ⟨n + 1, by rw [Function.iterate_succ_apply, hadvance]⟩

/-- Two states at rest that come from one in any number of steps are the same. -/
theorem eq_of_iterate {α : Type} {f : α → α} {a b c : α} {m n : Nat} (hb : b = f^[m] a)
    (hc : c = f^[n] a) (hfb : f b = b) (hfc : f c = c) : b = c := by
  have hfixed {x : α} (hx : f x = x) (k : Nat) : f^[k] x = x := Function.iterate_fixed hx k
  rcases Nat.le_total m n with hmn | hnm
  · obtain ⟨k, rfl⟩ := Nat.exists_eq_add_of_le' hmn
    rw [hc, Function.iterate_add_apply, ← hb, hfixed hfb]
  · obtain ⟨k, rfl⟩ := Nat.exists_eq_add_of_le' hnm
    rw [hb, Function.iterate_add_apply, ← hc, hfixed hfc]

/-! ## One stream in two ways -/

/-- Whatever steps the relay takes by itself, it can go on by itself to `t`, where it rests. -/
def ComesTo (g : Gate σ) (s t : State σ) : Prop :=
  Settled g t ∧ ∀ taken, (∀ e ∈ taken, Event.Inner e) →
    ∃ more, (∀ e ∈ more, Event.Inner e) ∧ run g s (taken ++ more) = t

theorem foreseen_append_inner {more : List Event} (hmore : ∀ e ∈ more, Event.Inner e) :
    foreseen d (events ++ more) s = foreseen d events s := by
  rw [foreseen, List.foldl_append, foldl_awaited_inner _ hmore, foreseen]

/-- All runs that are fed the same come to the same. -/
theorem Alone.comesTo (hs : Alone d s) (hfeeds : ∀ e ∈ events, e.Feeds d) (hsettled : Settled g t)
    {n : Nat} (ht : t = (advance g d)^[n] (foreseen d events s)) :
    ComesTo g (run g s events) t := by
  refine ⟨hsettled, fun taken htaken => ?_⟩
  have hfed {inner : List Event} (hinner : ∀ e ∈ inner, Event.Inner e) :
      ∀ e ∈ events ++ inner, e.Feeds d := by
    simp only [List.mem_append]
    rintro e (he | he)
    · exact hfeeds e he
    · exact (hinner e he).feeds d
  obtain ⟨more, hmore, hrest⟩ := (hs.run_eq (g := g) (hfed htaken)).1.settles g
  refine ⟨more, hmore, ?_⟩
  have hinner : ∀ e ∈ taken ++ more, Event.Inner e := by
    simp only [List.mem_append]
    rintro e (he | he)
    · exact htaken e he
    · exact hmore e he
  obtain ⟨halone, m, hrun⟩ := hs.run_eq (g := g) (hfed hinner)
  rw [foreseen_append_inner hinner] at hrun
  rw [← run_append, List.append_assoc] at hrest
  rw [← run_append]
  exact eq_of_iterate hrun ht (halone.settled_iff.mp hrest) (hsettled _ (turnOf_inner d t))

/-- A relay that has come to rest behind the end of a stream has ended, or the pump that read the
stream has crashed. -/
theorem Settled.outcome (hs : Settled g s) (hreports : Reports s) (hends : Ends s)
    (hclosed : (s.source d).inlet.ending ≠ .open) : s.outcome ≠ none ∨ Stalled d s := by
  have hover : (s.phase d).isOver = true := by
    rcases rests_of_pump_eq (hs (.pump d) (by rintro _ _ ⟨⟩)) with hover | ⟨-, -, htake⟩
    · exact hover
    · exact absurd htake (Inlet.take_ne_waiting hclosed)
  rcases rests_of_pump_eq (hs (.pump d.opposite) (by rintro _ _ ⟨⟩)) with hother | ⟨hwaits, hrun, hsilent⟩
  · have hboth : s.isOver = true := by
      rw [State.isOver_iff]
      intro c
      rcases c.eq_or_opposite d with rfl | rfl
      · exact hover
      · exact hother
    have hsupervised : supervise s = s := hs .supervise (by rintro _ _ ⟨⟩)
    have hstop : (supervise s).stopped = true := by simp [supervise, hboth]
    rw [hsupervised] at hstop
    refine .inl ?_
    rw [← hs .conclude (by rintro _ _ ⟨⟩)]
    exact step_conclude hstop hboth
  · have hrunning : (s.phase d.opposite).isOver = false := by rw [hwaits]; rfl
    refine .inr (hreports.stalled hends ?_ hwaits hsilent)
    by_contra hne
    have hsupervised : supervise s = s := hs .supervise (by rintro _ _ ⟨⟩)
    have hstop := (hreports.stops_iff hover hrunning).mpr hne
    rw [hsupervised, hrun] at hstop
    cases hstop

/-- A peer's stream is cut into pieces in two ways and closed, while the other peer does nothing: the
pieces arrive between any steps of the relay, which was at rest before. Then there is one state to
which the relay comes in both cases, however it takes its steps, and in which nothing more happens.
So the same octets have been written, the same calls have been made with the same arguments in the
same order, and the outcome is the same. There is one, unless the pump that reads the stream has
crashed and the relay waits for the other peer. -/
theorem chunking_irrelevant (g : Gate σ) (session : Session) (hooks : σ) (before : List Event)
    (d : Direction) {es es' : List Event}
    (hrest : Settled g (run g (.start session hooks) before))
    (hopen : ((run g (.start session hooks) before).source d).inlet.ending = .open)
    (hes : ∀ e ∈ es, e.Feeds d) (hes' : ∀ e ∈ es', e.Feeds d)
    (hclose : .peer d .halfClose ∈ es) (hclose' : .peer d .halfClose ∈ es')
    (hstream : stream d es = stream d es') :
    ∃ t, ComesTo g (run g (.start session hooks) (before ++ es)) t ∧
      ComesTo g (run g (.start session hooks) (before ++ es')) t ∧
      (t.outcome ≠ none ∨ Stalled d t) := by
  have halone := hrest.alone d
  have htracks := (run_tracks g session hooks before d).2
  obtain ⟨more, hmore, hsettled⟩ := (halone.run_eq (g := g) hes).1.settles g
  have hfed : ∀ e ∈ es ++ more, e.Feeds d := by
    simp only [List.mem_append]
    rintro e (he | he)
    · exact hes e he
    · exact (hmore e he).feeds d
  obtain ⟨-, n, hn⟩ := halone.run_eq (g := g) hfed
  rw [foreseen_append_inner hmore] at hn
  have hsame : foreseen d es (run g (.start session hooks) before) =
      foreseen d es' (run g (.start session hooks) before) := by
    rw [foreseen_closed hopen hes hclose, foreseen_closed hopen hes' hclose', hstream]
  rw [← run_append, ← run_append] at hsettled
  rw [← run_append] at hn
  refine ⟨_, ?_, ?_, hsettled.outcome (run_reports ..) (run_ends ..) ?_⟩
  · rw [run_append]
    exact halone.comesTo hes hsettled hn
  · rw [run_append]
    exact halone.comesTo hes' hsettled (hsame ▸ hn)
  · have hclosed := (run_tracks g session hooks (before ++ (es ++ more)) d).2
    rw [List.foldl_append, foldl_offered_inlet, foldl_awaited_closed (htracks.trans hopen)
      (not_failReading_of_feeds hfed) (List.mem_append_left _ hclose)] at hclosed
    rw [← hclosed]
    nofun

/-- A PINGREQ is cut inside its length, which is one octet longer than it need be. -/
def cutInLength : List Event :=
  [.peer .toBroker (.arrive [0xC0, 0x80]), .pump .toBroker, .peer .toBroker (.arrive [0x00]),
    .pump .toBroker, .peer .toBroker .halfClose]

def inOnePiece : List Event :=
  [.peer .toBroker (.arrive [0xC0, 0x80, 0x00]), .peer .toBroker .halfClose]

theorem same_end_of_cutInLength : ∃ t,
    ComesTo permissive (run permissive (.start {} ()) cutInLength) t ∧
    ComesTo permissive (run permissive (.start {} ()) inOnePiece) t ∧
    (t.outcome ≠ none ∨ Stalled .toBroker t) := by
  have hcut : ∀ e ∈ cutInLength, e.Feeds .toBroker := by
    intro e he c h heq
    subst heq
    simp only [cutInLength, List.mem_cons, List.not_mem_nil, or_false, reduceCtorEq, false_or,
      Event.peer.injEq] at he
    rcases he with ⟨rfl, rfl⟩ | ⟨rfl, rfl⟩ | ⟨rfl, rfl⟩ <;> simp
  have hwhole : ∀ e ∈ inOnePiece, e.Feeds .toBroker := by
    intro e he c h heq
    subst heq
    simp only [inOnePiece, List.mem_cons, List.not_mem_nil, or_false, Event.peer.injEq] at he
    rcases he with ⟨rfl, rfl⟩ | ⟨rfl, rfl⟩ <;> simp
  exact chunking_irrelevant permissive {} () [] .toBroker (settled_start permissive {} ()) rfl hcut
    hwhole (by decide) (by decide) rfl

end MqttGateway.Relay
