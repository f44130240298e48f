import MqttGateway.Proofs.Frame.Stream
import MqttGateway.Proofs.Relay.Halting
/-!
# Draining a connection

A pump whose peer sends no more takes what has arrived and comes to its end: each of its steps leaves
it less to do, whatever else happens.
-/
namespace MqttGateway

namespace Inlet

theorem take_ne_waiting {inlet : Inlet} (h : inlet.ending ≠ .open) : inlet.take ≠ .waiting := by
  obtain ⟨arrived, ending⟩ := inlet
  cases arrived with
  | nil => cases ending <;> first | exact absurd rfl h | nofun
  | cons head after =>
    rcases begins head after with hunfinished | hoverlong | ⟨octets, rest, hframe, hsplit⟩
    · rw [take_unfinished hunfinished]
      cases ending <;> first | exact absurd rfl h | nofun
    · rw [take_overlong hoverlong]
      nofun
    · rw [hsplit, take_isFrame hframe]
      cases Packet.decode octets <;> nofun

end Inlet

namespace Link

variable {link : Link}

/-- Nothing arrives any more once that has come to an end. -/
theorem arrive_of_not_open (h : link.inlet.ending ≠ .open) (octets : Octets) :
    link.arrive octets = link := by
  unfold Link.arrive
  split
  case h_1 hopen => exact absurd hopen h
  case h_2 => rfl

theorem halfClose_of_not_open (h : link.inlet.ending ≠ .open) : link.halfClose = link := by
  unfold Link.halfClose
  split
  case h_1 hopen => exact absurd hopen h
  case h_2 => rfl

end Link

namespace Relay

variable {σ : Type} {g : Gate σ} {s t : State σ} {c d : Direction}

/-- How many steps the pump of a direction has left at most with what has arrived. -/
def weight (d : Direction) (s : State σ) : Nat :=
  10 * (s.source d).inlet.arrived.length + (s.phase d).left

theorem Moves.weight_lt (h : Moves g d s t) : weight d t < weight d s := by
  obtain ⟨e, q, r, hturn, hperf, rfl⟩ := h
  simp only [weight, State.enter_source, State.enter_phase]
  by_cases he : ∃ f, e = some (.took d f)
  · obtain ⟨f, rfl⟩ := he
    cases hperf with
    | @take f rest _ htake =>
      have hshorter : rest.length < (s.source d).inlet.arrived.length := Inlet.take_shorter htake
      rw [State.note_source, State.setSource_source]
      generalize s.phase d = p at hturn
      cases hturn with
      | take f =>
        simp only [Phase.left]
        omega
  · have hnot (f : Frame) : e ≠ some (.took d f) := fun h => he ⟨f, h⟩
    rw [hperf.inlet hnot]
    have hleft := hturn.left hnot
    omega

/-- A pump that moves changes something. -/
theorem rests_of_pump_eq (h : pump g d s = s) : Rests d s := by
  rcases pump_moves g d s with hrests | hmoves
  · exact hrests
  · have hlt := hmoves.weight_lt
    rw [h] at hlt
    exact absurd hlt (Nat.lt_irrefl _)

/-- What its peer does brings a pump nothing once nothing can arrive. -/
theorem after_closed {link : Link} (hclosed : link.inlet.ending ≠ .open) (h : Happening) :
    (link.after h).inlet.arrived = link.inlet.arrived ∧ (link.after h).inlet.ending ≠ .open := by
  cases h with
  | arrive octets =>
    rw [Link.after, Link.arrive_of_not_open hclosed]
    exact ⟨rfl, hclosed⟩
  | halfClose =>
    rw [Link.after, Link.halfClose_of_not_open hclosed]
    exact ⟨rfl, hclosed⟩
  | failReading text => exact ⟨rfl, by rintro ⟨⟩⟩
  | failWriting text => exact ⟨rfl, hclosed⟩

/-- What others do leaves a pump no more to do once nothing can arrive. -/
theorem step_weight_le {e : Event} (hclosed : (s.source d).inlet.ending ≠ .open)
    (he : e ≠ .pump d) : weight d (step g s e) ≤ weight d s ∧
      ((step g s e).source d).inlet.ending ≠ .open := by
  have hphase := step_phase (g := g) (s := s) he
  have hsame : (((step g s e).source d).inlet.arrived = (s.source d).inlet.arrived) ∧
      ((step g s e).source d).inlet.ending ≠ .open := by
    by_cases hpeer : ∃ h, e = .peer d h
    · obtain ⟨h, rfl⟩ := hpeer
      rw [step, State.setSource_source]
      exact after_closed hclosed h
    · rw [step_inlet he fun h hh => hpeer ⟨h, hh⟩]
      exact ⟨rfl, hclosed⟩
  rw [weight, weight, hphase, hsame.1]
  exact ⟨Nat.le_refl _, hsame.2⟩

/-- A step of its own brings a pump nearer to its end if nothing more can arrive. -/
theorem pump_weight_lt (hclosed : (s.source d).inlet.ending ≠ .open)
    (hrunning : (s.phase d).isOver = false) : weight d (pump g d s) < weight d s ∧
      ((pump g d s).source d).inlet.ending ≠ .open := by
  rcases pump_moves g d s with h | h
  · rcases h with hover | ⟨-, -, htake⟩
    · rw [hrunning] at hover
      cases hover
    · exact absurd htake (Inlet.take_ne_waiting hclosed)
  · refine ⟨h.weight_lt, ?_⟩
    obtain ⟨e, q, r, -, hperf, heq⟩ := h
    rw [heq, State.enter_source]
    by_cases he : ∃ f, e = some (.took d f)
    · obtain ⟨f, rfl⟩ := he
      cases hperf with
      | take =>
        rw [State.note_source, State.setSource_source]
        exact hclosed
    · rwa [hperf.inlet fun f h => he ⟨f, h⟩]

/-- A pump whose peer sends no more is over after as many steps of its own as it has left. -/
theorem run_drains (hclosed : (s.source d).inlet.ending ≠ .open) {events : List Event}
    (hsteps : weight d s ≤ events.count (.pump d)) : ((run g s events).phase d).isOver = true := by
  induction events generalizing s with
  | nil =>
    have hleft : (s.phase d).left = 0 := by
      rw [List.count_nil, weight] at hsteps
      omega
    exact Phase.isOver_of_left hleft
  | cons e events ih =>
    by_cases hover : (s.phase d).isOver = true
    · rwa [run_over g _ hover]
    · rw [Bool.not_eq_true] at hover
      by_cases he : e = .pump d
      · subst he
        obtain ⟨hlt, hopen⟩ := pump_weight_lt (g := g) hclosed hover
        rw [List.count_cons_self] at hsteps
        exact ih (s := pump g d s) hopen (by omega)
      · obtain ⟨hle, hopen⟩ := step_weight_le (g := g) hclosed he
        rw [List.count_cons_of_ne he] at hsteps
        exact ih (s := step g s e) hopen (by omega)

end Relay
end MqttGateway
