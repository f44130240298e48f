import MqttGateway.Proofs.Relay.Moves
/-!
# What a journal tells

The frames that a pump has taken and written, the calls it has made and the sessions that were
stored are read off the journal of a relay, and so are the octets that have gone and the answers of
the hooks.
-/
namespace MqttGateway.Relay

variable {σ : Type} {d : Direction}

def taken (d : Direction) (j : List Entry) : List Frame :=
  j.filterMap fun
    | .took c f => if c = d then some f else none
    | _ => none

def calls (d : Direction) (j : List Entry) : List Call :=
  j.filterMap fun
    | .called c call => if c = d then some call else none
    | _ => none

def forwarded (d : Direction) (j : List Entry) : List (Frame × Octets) :=
  j.filterMap fun
    | .wrote c f octets => if c = d then some (f, octets) else none
    | _ => none

def storedSessions (j : List Entry) : List Session :=
  j.filterMap fun
    | .stored session => some session
    | _ => none

def Entry.isLast : Entry → Bool
  | .left _ => true
  | .disconnected _ _ => true
  | _ => false

/-- The end of a relay tells nothing of the pumps. -/
theorem filterMap_last {α : Type} {f : Entry → Option α} {k : List Entry}
    (hk : ∀ e ∈ k, e.isLast = true) (hleft : ∀ octets, f (.left octets) = none)
    (hdisconnected : ∀ session reply, f (.disconnected session reply) = none) :
    k.filterMap f = [] := by
  refine List.filterMap_eq_nil_iff.mpr fun e he => ?_
  have hlast := hk e he
  cases e with
  | left octets => exact hleft octets
  | disconnected session reply => exact hdisconnected session reply
  | _ => cases hlast

theorem mem_forwarded {d : Direction} {j : List Entry} {f : Frame} {octets : Octets}
    (h : (f, octets) ∈ forwarded d j) : .wrote d f octets ∈ j := by
  obtain ⟨e, he, hf⟩ := List.mem_filterMap.mp h
  cases e with
  | wrote c f' octets' =>
    simp only [Option.ite_none_right_eq_some] at hf
    obtain ⟨rfl, hf⟩ := hf
    cases hf
    exact he
  | _ => cases hf

theorem taken_append (d : Direction) (j k : List Entry) :
    taken d (j ++ k) = taken d j ++ taken d k :=
  List.filterMap_append

theorem taken_last {k : List Entry} (hk : ∀ e ∈ k, e.isLast = true) : taken d k = [] :=
  filterMap_last hk (fun _ => rfl) fun _ _ => rfl

theorem calls_last {k : List Entry} (hk : ∀ e ∈ k, e.isLast = true) : calls d k = [] :=
  filterMap_last hk (fun _ => rfl) fun _ _ => rfl

theorem forwarded_append (d : Direction) (j k : List Entry) :
    forwarded d (j ++ k) = forwarded d j ++ forwarded d k :=
  List.filterMap_append

theorem forwarded_last {k : List Entry} (hk : ∀ e ∈ k, e.isLast = true) : forwarded d k = [] :=
  filterMap_last hk (fun _ => rfl) fun _ _ => rfl

theorem storedSessions_append (j k : List Entry) :
    storedSessions (j ++ k) = storedSessions j ++ storedSessions k :=
  List.filterMap_append

theorem storedSessions_last {k : List Entry} (hk : ∀ e ∈ k, e.isLast = true) :
    storedSessions k = [] :=
  filterMap_last hk (fun _ => rfl) fun _ _ => rfl

def Entry.octetsTo (d : Direction) : Entry → Octets
  | .wrote c _ octets => if c = d then octets else []
  | .left octets => if d = .toBroker then octets else []
  | _ => []

def Entry.AnsweredBy (g : Gate σ) (before after : σ) : Entry → Prop
  | .called _ call => call.AnsweredBy g before after
  | .disconnected s r => g.handler.disconnected s before = (r, after)
  | _ => after = before

/-- The hooks pass from `before` to `after` by giving the answers in a journal, and in no other way.
-/
inductive Answered (g : Gate σ) (before : σ) : List Entry → σ → Prop
  | nil : Answered g before [] before
  | snoc {j : List Entry} {e : Entry} {mid after : σ} : Answered g before j mid →
      e.AnsweredBy g mid after → Answered g before (j ++ [e]) after

theorem Answered.of_snoc {g : Gate σ} {before after : σ} {j : List Entry} {e : Entry}
    (h : Answered g before (j ++ [e]) after) :
    ∃ mid, Answered g before j mid ∧ e.AnsweredBy g mid after := by
  generalize hk : j ++ [e] = k at h
  cases h with
  | nil => exact absurd hk (by simp)
  | @snoc j' e' mid _ hj he =>
    obtain ⟨rfl, hlast⟩ := List.append_inj' hk rfl
    cases hlast
    exact ⟨mid, hj, he⟩

/-- An entry of a journal with one more is that one or an entry of the journal. -/
theorem append_eq_split {j before after : List Entry} {a e : Entry}
    (h : j ++ [e] = before ++ a :: after) :
    (after = [] ∧ j = before ∧ e = a) ∨ ∃ k, after = k ++ [e] ∧ j = before ++ a :: k := by
  rcases List.eq_nil_or_concat after with rfl | ⟨k, b, rfl⟩
  · obtain ⟨rfl, hb⟩ := List.append_inj' h rfl
    cases hb
    exact .inl ⟨rfl, rfl, rfl⟩
  · rw [List.concat_eq_append, ← List.cons_append, ← List.append_assoc] at h
    obtain ⟨rfl, hb⟩ := List.append_inj' h rfl
    cases hb
    exact .inr ⟨k, List.concat_eq_append .., rfl⟩

def Orderly (R : List Entry → Entry → Prop) (j : List Entry) : Prop :=
  ∀ before e after, j = before ++ e :: after → R before e

theorem Orderly.nil (R : List Entry → Entry → Prop) : Orderly R [] :=
  fun _ _ _ h => absurd h.symm (by simp)

theorem Orderly.snoc {R : List Entry → Entry → Prop} {j : List Entry} {e : Entry}
    (hj : Orderly R j) (he : R j e) : Orderly R (j ++ [e]) := by
  intro before a after h
  rcases append_eq_split h with ⟨-, rfl, rfl⟩ | ⟨k, -, rfl⟩
  · exact he
  · exact hj before a k rfl

end MqttGateway.Relay
