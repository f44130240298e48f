import MqttGateway.Proofs.Relay.Passage
/-!
# The session in the journal

A relay starts with one session. Which one it has later, which one a pump has seen and whether a
CONNECT comes too late can be told from the journal, and so can what the relay may note next.
-/
namespace MqttGateway.Relay

variable {d : Direction} {first : Session}

def sessionAfter (first : Session) (j : List Entry) : Session :=
  (storedSessions j).getLastD first

def connects (j : List Entry) : List (Session × Reply Session) :=
  j.filterMap fun
    | .called _ (.authorizeConnect session reply) => some (session, reply)
    | _ => none

def Entry.pump? : Entry → Option Direction
  | .took d _ => some d
  | .looked d _ => some d
  | .called d _ => some d
  | .stored _ => some .toBroker
  | .wrote d _ _ => some d
  | .left _ => none
  | .disconnected _ _ => none

def Sees (first : Session) (d : Direction) (j : List Entry) (seen : Session) : Prop :=
  ∃ before after, j = before ++ .looked d seen :: after ∧ seen = sessionAfter first before ∧
    ∀ e ∈ after, e.pump? ≠ some d

def Repeats (j : List Entry) : Prop :=
  ∃ before after f c, j = before ++ .took .toBroker f :: after ∧ f.packet = .connect c ∧
    ∃ asked session, (asked, .done session) ∈ connects before

/-- What a call may be made with: the session that was seen just before, and for a CONNECT, which is
the first that is asked about, the session of the start with the identity that it requests. -/
def Call.Befits (first : Session) (d : Direction) (j : List Entry) (seen : Session) : Call → Prop
  | .authorizeConnect asked _ => connects j = [] ∧ seen = first ∧
      ∃ f c, (taken d j).getLast? = some f ∧ f.packet = .connect c ∧ asked = first.withConnect c
  | call => call.session = seen

def Admits (first : Session) (j : List Entry) : Entry → Prop
  | .took d _ => d = .toBroker → ¬ Repeats j
  | .looked _ session => session = sessionAfter first j
  | .called d call => (d = .toBroker → ¬ Repeats j) ∧
      ∃ seen, Sees first d j seen ∧ call.Befits first d j seen
  | .stored session => storedSessions j = [] ∧
      ∃ c, connects j = [(first.withConnect c, .done session)]
  | .wrote d _ _ => d = .toBroker → ¬ Repeats j ∧
      ∀ f c, (taken d j).getLast? = some f → f.packet = .connect c →
        ∃ session, storedSessions j = [session]
  | .left _ => True
  | .disconnected session _ => session = sessionAfter first j

theorem connects_append (j k : List Entry) : connects (j ++ k) = connects j ++ connects k :=
  List.filterMap_append

theorem connects_last {k : List Entry} (hk : ∀ e ∈ k, e.isLast = true) : connects k = [] :=
  filterMap_last hk (fun _ => rfl) fun _ _ => rfl

theorem sessionAfter_of_none {j k : List Entry} (h : storedSessions k = []) :
    sessionAfter first (j ++ k) = sessionAfter first j := by
  rw [sessionAfter, storedSessions_append, h, List.append_nil, sessionAfter]

theorem sessionAfter_stored (j : List Entry) (session : Session) :
    sessionAfter first (j ++ [.stored session]) = session := by
  rw [sessionAfter, storedSessions_append]
  exact List.getLastD_concat ..

theorem mem_connects {j : List Entry} {asked : Session} {reply : Reply Session}
    (h : .authorizeConnect asked reply ∈ gateCalls d j) : (asked, reply) ∈ connects j := by
  obtain ⟨h, -⟩ := List.mem_filter.mp h
  obtain ⟨e, he, hcall⟩ := List.mem_filterMap.mp h
  refine List.mem_filterMap.mpr ⟨e, he, ?_⟩
  cases e with
  | called c call =>
    simp only [Option.ite_none_right_eq_some] at hcall
    obtain ⟨-, hcall⟩ := hcall
    cases hcall
    rfl
  | _ => cases hcall

theorem Repeats.snoc {j : List Entry} {e : Entry} (h : Repeats (j ++ [e])) :
    Repeats j ∨ ∃ f c, e = .took .toBroker f ∧ f.packet = .connect c ∧
      ∃ asked session, (asked, .done session) ∈ connects j := by
  obtain ⟨before, after, f, c, hj, hf, hdone⟩ := h
  rcases append_eq_split hj with ⟨rfl, rfl, rfl⟩ | ⟨k, rfl, rfl⟩
  · exact .inr ⟨f, c, rfl, hf, hdone⟩
  · exact .inl ⟨before, k, f, c, rfl, hf, hdone⟩

theorem Repeats.of_toList {j : List Entry} {e : Option Entry} (h : Repeats (j ++ e.toList)) :
    Repeats j ∨ ∃ f c, e = some (.took .toBroker f) ∧ f.packet = .connect c := by
  cases e with
  | none => exact .inl (by simpa using h)
  | some a =>
    rcases h.snoc with hbefore | ⟨f, c, rfl, hf, -⟩
    · exact .inl hbefore
    · exact .inr ⟨f, c, rfl, hf⟩

theorem Repeats.append {j : List Entry} (h : Repeats j) (k : List Entry) : Repeats (j ++ k) := by
  obtain ⟨before, after, f, c, rfl, hf, hdone⟩ := h
  exact ⟨before, after ++ k, f, c, by simp, hf, hdone⟩

theorem Repeats.authorized {j : List Entry} (h : Repeats j) :
    ∃ asked session, (asked, .done session) ∈ connects j := by
  obtain ⟨before, after, f, c, rfl, -, asked, session, hdone⟩ := h
  refine ⟨asked, session, ?_⟩
  rw [connects_append]
  exact List.mem_append_left _ hdone

theorem Sees.append {j k : List Entry} {seen : Session} (h : Sees first d j seen)
    (hk : ∀ e ∈ k, e.pump? ≠ some d) : Sees first d (j ++ k) seen := by
  obtain ⟨before, after, rfl, hseen, hafter⟩ := h
  refine ⟨before, after ++ k, by simp, hseen, fun e he => ?_⟩
  rcases List.mem_append.mp he with he | he
  · exact hafter e he
  · exact hk e he

/-- Only the pump to the broker stores a session, so what it has seen is still the session. -/
theorem Sees.eq_session {j : List Entry} {seen : Session} (h : Sees first .toBroker j seen) :
    seen = sessionAfter first j := by
  obtain ⟨before, after, rfl, rfl, hafter⟩ := h
  have hstored : storedSessions (.looked .toBroker (sessionAfter first before) :: after) = [] := by
    refine List.filterMap_eq_nil_iff.mpr fun e he => ?_
    rcases List.mem_cons.mp he with rfl | he
    · rfl
    · cases e with
      | stored session => exact absurd rfl (hafter _ he)
      | _ => rfl
  rw [sessionAfter_of_none hstored]

theorem Sees.eq_first {j : List Entry} {seen : Session} (h : Sees first .toBroker j seen)
    (hj : storedSessions j = []) : seen = first := by
  rw [h.eq_session, sessionAfter, hj]
  rfl

end MqttGateway.Relay
