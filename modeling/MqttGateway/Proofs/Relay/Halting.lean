import Mathlib.Data.List.Induction
import MqttGateway.Proofs.Relay.Runs
/-!
# Coming to an end

Main statement: a pump that has been told to stop is over after at most nine more steps of its own,
whatever else happens. A relay whose pumps are both over then comes to its outcome.
-/
namespace MqttGateway.Relay

variable {σ : Type} {g : Gate σ} {s t : State σ} {d : Direction}

/-- How many steps a pump has left at most once it has been told to stop. -/
@[simp] def Phase.left : Phase → Nat
  | .authorizing none _ => 9
  | .authorizing (some _) _ => 8
  | .storing _ _ => 7
  | .intercepting none _ => 6
  | .intercepting (some _) _ => 5
  | .writing _ => 4
  | .notifying none _ => 3
  | .notifying (some _) _ => 2
  | .reading => 1
  | .ended _ => 0
  | .crashed => 0

theorem Phase.left_le (p : Phase) : p.left ≤ 9 := by
  unfold Phase.left
  split <;> omega

theorem Phase.isOver_of_left {p : Phase} (h : p.left = 0) : p.isOver = true := by
  cases p with
  | authorizing seen f => cases seen <;> cases h
  | intercepting seen f => cases seen <;> cases h
  | notifying seen f => cases seen <;> cases h
  | ended fault => rfl
  | crashed => rfl
  | _ => cases h

theorem Phase.left_of_isOver {p : Phase} (h : p.isOver = true) : p.left = 0 := by
  cases p <;> first | rfl | cases h

/-- Every turn but the taking of a frame brings a pump nearer to its next read or to its end. -/
theorem Turn.left {connected : Bool} {p q : Phase} {e : Option Entry}
    (h : Turn g connected d p e q) (he : ∀ f, e ≠ some (.took d f)) : q.left < p.left := by
  cases h with
  | take f => exact absurd rfl (he f)
  | authorize hauth _ =>
    rcases hauth.leads with ⟨fault, rfl⟩ | rfl | ⟨session, f', rfl⟩ | ⟨f', rfl⟩ <;> simp
  | intercept reply _ => cases reply <;> simp [Phase.ofReply]
  | @notify _ _ _ reply _ => cases reply <;> simp [Phase.ofReply]
  | write => cases d <;> simp [Phase.afterWriting]
  | _ => simp

/-- At its read a pump that has been told to stop ends. -/
theorem pump_ends (hp : s.phase d = .reading) (hstop : s.stopped = true) :
    pump g d s = s.enter d (.ended none) := by
  rw [pump, hp]
  exact if_pos hstop

theorem pump_left (hstop : s.stopped = true) :
    ((pump g d s).phase d).left ≤ (s.phase d).left - 1 := by
  rcases pump_moves g d s with h | ⟨e, q, r, hturn, hperf, h⟩
  · rw [pump_rests g h]
    rcases h with hover | ⟨-, hrun, -⟩
    · have hleft := Phase.left_of_isOver hover
      omega
    · rw [hstop] at hrun
      cases hrun
  · rw [h, State.enter_phase]
    refine Nat.le_sub_one_of_lt (hturn.left fun f he => ?_)
    subst he
    cases hperf with
    | take hrun => rw [hstop] at hrun; cases hrun

theorem step_stopped (e : Event) (hstop : s.stopped = true) : (step g s e).stopped = true := by
  cases e with
  | peer c h => simpa [step] using hstop
  | pump c =>
    rcases pump_moves g c s with h | ⟨e, q, r, -, hperf, h⟩
    · rw [step, pump_rests g h, hstop]
    · rw [step, h, State.enter_stopped, hperf.stopped, hstop]
  | supervise =>
    simp only [step, supervise]
    split
    case isTrue => exact hstop
    case isFalse => rfl
  | conclude =>
    simp only [step]
    split
    case isTrue => exact (conclude_concludes g s).stopped.trans hstop
    case isFalse => exact hstop

theorem run_stopped (g : Gate σ) (events : List Event) (hstop : s.stopped = true) :
    (run g s events).stopped = true := by
  induction events generalizing s with
  | nil => exact hstop
  | cons e events ih => exact ih (step_stopped e hstop)

/-- A pump that has been told to stop is over after at most nine more steps of its own. -/
theorem run_halts (hstop : s.stopped = true) {events : List Event}
    (hsteps : 9 ≤ events.count (.pump d)) : ((run g s events).phase d).isOver = true := by
  have hcount := run_countdown (P := fun s => s.stopped = true) (fun _ e => step_stopped e)
    (fun _ => pump_left) hstop events (g := g) (d := d)
  have hle := Phase.left_le (s.phase d)
  exact Phase.isOver_of_left (by omega)

/-- A pump that is over stays as it is. -/
theorem run_over (g : Gate σ) (events : List Event) (hover : (s.phase d).isOver = true) :
    (run g s events).phase d = s.phase d := by
  induction events generalizing s with
  | nil => rfl
  | cons e events ih =>
    have hstep : (step g s e).phase d = s.phase d := by
      by_cases he : e = .pump d
      · rw [he, step, pump_rests g (.inl hover)]
      · exact step_phase he
    rw [run, List.foldl_cons, ← run, ih (hstep ▸ hover), hstep]

/-- A pump has come to its end in a certain way exactly if a step of its own brought it there. -/
theorem run_enters_iff (g : Gate σ) (events : List Event) {q : Phase} (hq : q.isOver = true)
    (hs : s.phase d ≠ q) : (run g s events).phase d = q ↔
      ∃ before after, events = before ++ .pump d :: after ∧ (run g s before).phase d ≠ q ∧
        (pump g d (run g s before)).phase d = q := by
  constructor
  · intro hended
    induction events using List.reverseRecOn with
    | nil => exact absurd hended hs
    | append_singleton events e ih =>
      by_cases hbefore : (run g s events).phase d = q
      · obtain ⟨before, after, rfl, hstep⟩ := ih hbefore
        exact ⟨before, after ++ [e], by simp, hstep⟩
      · -- it ended with the last event, which is then a step of its own
        rw [run_snoc] at hended
        have he : e = .pump d := Decidable.byContradiction fun hne => by
          rw [step_phase hne] at hended
          exact hbefore hended
        subst he
        exact ⟨events, [], rfl, hbefore, hended⟩
  · rintro ⟨before, after, rfl, -, hended⟩
    rw [run_append]
    exact (run_over g after (s := pump g d (run g s before)) (by rwa [hended])).trans hended

/-- A pump that ends in a way in which only a read ends was reading. -/
theorem pump_enters_iff {q : Phase} (hne : s.phase d ≠ q)
    (hread : ∀ t : State σ, Moves g d s t → t.phase d = q → s.phase d = .reading) :
    (pump g d s).phase d = q ↔ s.phase d = .reading ∧ (read s d).phase d = q := by
  constructor
  · intro hq
    rcases pump_moves g d s with h | h
    · rw [pump_rests g h] at hq
      exact absurd hq hne
    · have hp := hread _ h hq
      rw [pump, hp] at hq
      exact ⟨hp, hq⟩
  · rintro ⟨hp, hq⟩
    rwa [pump, hp]

def AtRead (g : Gate σ) (s : State σ) (events : List Event) (d : Direction) (P : State σ → Prop) :
    Prop :=
  ∃ before after, events = before ++ .pump d :: after ∧ (run g s before).phase d = .reading ∧
    P (run g s before)

/-- If only a read ends in a certain way, then a run does just if it came to such a read. -/
theorem run_enters_at_read_iff (g : Gate σ) (events : List Event) {q : Phase} {P : State σ → Prop}
    (hq : q.isOver = true) (hs : s.phase d ≠ q)
    (hread : ∀ s t : State σ, Moves g d s t → t.phase d = q → s.phase d = .reading)
    (hiff : ∀ s : State σ, s.phase d = .reading → ((read s d).phase d = q ↔ P s)) :
    (run g s events).phase d = q ↔ AtRead g s events d P := by
  rw [run_enters_iff g events hq hs]
  constructor
  · rintro ⟨before, after, rfl, hne, hended⟩
    obtain ⟨hp, hended⟩ := (pump_enters_iff hne (hread _)).mp hended
    exact ⟨before, after, rfl, hp, (hiff _ hp).mp hended⟩
  · rintro ⟨before, after, rfl, hp, hP⟩
    have hne : (run g s before).phase d ≠ q := by
      rintro rfl
      rw [hp] at hq
      cases hq
    exact ⟨before, after, rfl, hne, (pump_enters_iff hne (hread _)).mpr ⟨hp, (hiff _ hp).mpr hP⟩⟩

/-! ## How a pump comes to be over -/

def isCrash {α : Type} : Reply α → Bool
  | .crashed => true
  | _ => false

def Call.crashes : Call → Bool
  | .authorizeConnect _ r => isCrash r
  | .authorizePublish _ _ r => isCrash r
  | .authorizeSubscribe _ _ r => isCrash r
  | .intercept _ _ _ r => isCrash r
  | .connected _ r => isCrash r
  | .published _ _ r => isCrash r
  | .subscribed _ _ r => isCrash r
  | .unsubscribed _ _ r => isCrash r

theorem Notifies.crashes {seen : Session} {packet : Packet} {call : Call} {reply : Reply Unit}
    (h : Notifies seen packet call reply) : call.crashes = isCrash reply := by
  cases h <;> rfl

def Phase.Blamed (p : Phase) : Prop :=
  ∃ fault, p = .ended (some fault) ∧ ∀ error, fault ≠ .codec error

theorem ofReply_isOver {α : Type} {fault : Refusal → PumpFault} {next : α → Phase} {reply : Reply α}
    (hover : (Phase.ofReply fault next reply).isOver = true)
    (hfault : ∀ causes error, fault causes ≠ .codec error)
    (hnext : ∀ a, (next a).isOver = true → (next a).Blamed) :
    isCrash reply = true ∧ Phase.ofReply fault next reply = .crashed ∨
      (Phase.ofReply fault next reply).Blamed := by
  cases reply with
  | done a => exact .inr (hnext a hover)
  | refused causes => exact .inr ⟨_, rfl, hfault causes⟩
  | crashed => exact .inl ⟨rfl, rfl⟩

theorem Authorizes.isOver {seen : Session} {f : Frame} {call : Call} {q : Phase}
    (h : Authorizes seen f d call q) (hover : q.isOver = true) :
    call.crashes = true ∧ q = .crashed ∨ q.Blamed := by
  cases h with
  | connect => exact ofReply_isOver hover (fun _ _ h => by cases h) (fun _ h => by cases h)
  | publish => exact ofReply_isOver hover (fun _ _ h => by cases h) (fun _ h => by cases h)
  | subscribe =>
    refine ofReply_isOver hover (fun _ _ h => by cases h) fun filters => ?_
    split
    · exact fun _ => ⟨_, rfl, fun _ h => by cases h⟩
    · exact fun h => by cases h
  | delivery => exact ofReply_isOver hover (fun _ _ h => by cases h) (fun _ h => by cases h)

/-- A pump that comes to be over was reading, or somebody crashed whom it called, or it has a fault
to report that is none of the codec. -/
theorem Turn.of_isOver {connected : Bool} {p q : Phase} {e : Option Entry}
    (h : Turn g connected d p e q) (hover : q.isOver = true) :
    p = .reading ∨ (∃ call, e = some (.called d call) ∧ call.crashes = true ∧ q = .crashed) ∨
      q.Blamed := by
  cases h with
  | halt | overrun => exact .inl rfl
  | again | unwritten => exact .inr (.inr ⟨_, rfl, nofun⟩)
  | authorize hauth _ =>
    rcases hauth.isOver hover with hcrash | hblamed
    · exact .inr (.inl ⟨_, rfl, hcrash⟩)
    · exact .inr (.inr hblamed)
  | intercept reply _ =>
    rcases ofReply_isOver hover (fun _ _ h => by cases h) (fun _ h => by cases h)
      with hcrash | hblamed
    · exact .inr (.inl ⟨_, rfl, hcrash⟩)
    · exact .inr (.inr hblamed)
  | notify hnotifies =>
    rcases ofReply_isOver hover (fun _ _ h => by cases h) (fun _ h => by cases h)
      with ⟨hcrash, hq⟩ | hblamed
    · exact .inr (.inl ⟨_, rfl, hnotifies.crashes.trans hcrash, hq⟩)
    · exact .inr (.inr hblamed)
  | write => cases d <;> cases hover
  | _ => cases hover

/-- What a read brings a pump to. -/
theorem read_phase (hp : s.phase d = .reading) : (read s d).phase d =
    if s.stopped then .ended none
    else match (s.source d).inlet.take with
      | .waiting => .reading
      | .closed => .ended none
      | .failed (.error error) _ => .ended (some (.codec error))
      | .failed .overrun _ => .crashed
      | .frame f _ => .authorizing none f := by
  cases hstop : s.stopped with
  | true => simp [read, hstop]
  | false =>
    simp only [read, hstop, Bool.false_eq_true, if_false]
    cases htake : (s.source d).inlet.take with
    | waiting => exact hp
    | failed halt rest => cases halt <;> exact State.enter_phase ..
    | _ => exact State.enter_phase ..

/-- A relay that has stopped and whose pumps are over comes to its outcome. -/
theorem step_conclude (hstop : s.stopped = true) (hover : s.isOver = true) :
    (step g s .conclude).outcome ≠ none := by
  simp only [step]
  split
  case isTrue => exact (conclude_concludes g s).outcome
  case isFalse h => simpa [hstop, hover] using h

end MqttGateway.Relay
