import MqttGateway.Proofs.Relay.FirstExit
/-!
# What a relay returns

Main statement: a relay that has ended without a crash of its own returns the first error of its
pumps, a failure for each pump that has crashed, the failure of the last DISCONNECT and that of the
last hook, in this order, each if it occurred and nothing else. It returns no error just if nothing
of this occurred.
-/
namespace MqttGateway

namespace RelayError

def faults : RelayError → List RelayFault
  | .bare fault => [fault]
  | .joined faults => faults

theorem join_eq_none_iff {faults : List RelayFault} : join faults = none ↔ faults = [] := by
  cases faults with
  | nil => exact iff_of_true rfl rfl
  | cons fault rest =>
    refine iff_of_false ?_ (List.cons_ne_nil _ _)
    cases rest <;> nofun

structure Returns (error : RelayError) (all : List RelayFault) : Prop where
  faults : error.faults = all
  bare : ∀ fault, error = .bare fault ↔ all = [fault]
  joined : error = .joined all ↔ 2 ≤ all.length

theorem returns_of_join {faults : List RelayFault} {error : RelayError}
    (h : join faults = some error) : error.Returns faults := by
  match faults with
  | [] => cases h
  | [fault] =>
    cases h
    exact ⟨rfl, by simp, by simp⟩
  | _ :: _ :: _ =>
    cases h
    exact ⟨rfl, by simp, by simp⟩

theorem pumpFault?_eq (error : RelayError) :
    error.pumpFault? = error.faults.findSome? (·.pumpFault?) := by
  cases error with
  | bare fault => simp [pumpFault?, faults]
  | joined faults => rfl

end RelayError

/-- A relay that ended returns no error just if it ended without faults. -/
theorem Outcome.result?_ended {faults : List RelayFault} :
    (Outcome.ended faults).result? = some (.ok ()) ↔ faults = [] := by
  rw [← RelayError.join_eq_none_iff]
  cases h : RelayError.join faults <;> simp [result?, h]

theorem Outcome.join_of_result? {faults : List RelayFault} {error : RelayError}
    (h : (Outcome.ended faults).result? = some (.error error)) :
    RelayError.join faults = some error := by
  cases hjoin : RelayError.join faults with
  | none => simp [result?, hjoin] at h
  | some error' =>
    simp only [result?, hjoin, Option.some.injEq, Except.error.injEq] at h
    rw [h]

namespace Relay

variable {σ : Type} {g : Gate σ} {s t : State σ} {d : Direction}

/-! ## The last DISCONNECT -/

structure LeavesInVain (g : Gate σ) (start : State σ) (events : List Event) (error : CodecError) :
    Prop where
  denied : ∃ d causes, FailsFirst g start events d (.deliveryDenied causes)
  intact : (run g start events).phase .toBroker ≠ .crashed
  unwritten : ∀ octets, .left octets ∉ (run g start events).journal
  broken : ∃ text, ((run g start events).sink .toBroker).outlet.broken = some text ∧
    error = .io text

theorem leavesBroker_iff_failsFirst (g : Gate σ) (session : Session) (hooks : σ)
    (events : List Event) :
    leavesBroker (run g (.start session hooks) events) = true ↔
      (run g (.start session hooks) events).phase .toBroker ≠ .crashed ∧
      ∃ d causes, FailsFirst g (.start session hooks) events d (.deliveryDenied causes) := by
  rw [leavesBroker_iff]
  refine and_congr_right fun _ => ?_
  constructor
  · rintro ⟨⟨d, fault⟩, hfirst, hdelivery⟩
    obtain ⟨causes, rfl⟩ := isDelivery_iff.mp hdelivery
    exact ⟨d, causes, (firstFault?_iff_failsFirst g session hooks events).mp hfirst⟩
  · rintro ⟨d, causes, hfails⟩
    exact ⟨_, (firstFault?_iff_failsFirst g session hooks events).mpr hfails, rfl⟩

/-! ## The end -/

theorem crashes_eq_nil_iff (s : State σ) : crashes s = [] ↔ ∀ d, s.phase d ≠ .crashed := by
  rw [crashes_eq]
  constructor
  · intro hnil d hcrashed
    cases d <;> simp [hcrashed] at hnil
  · intro hno
    simp [hno]

theorem lastFault_eq_nil_iff {reply : Reply Unit} (h : reply ≠ .crashed) :
    lastFault reply = [] ↔ reply = .done () := by
  cases reply with
  | done _ => exact iff_of_true rfl rfl
  | refused causes => exact iff_of_false (List.cons_ne_nil _ _) nofun
  | crashed => exact absurd rfl h

theorem faultsOf_eq_nil_iff (s : State σ) {reply : Reply Unit} (h : reply ≠ .crashed) :
    faultsOf s reply = [] ↔ firstFault? s = none ∧ (∀ d, s.phase d ≠ .crashed) ∧
      unwritten? s = none ∧ reply = .done () := by
  simp only [faultsOf, leaveBroker_unwritten, List.append_eq_nil_iff, List.map_eq_nil_iff,
    Option.toList_eq_nil_iff, crashes_eq_nil_iff, lastFault_eq_nil_iff h, and_assoc]

/-- What is returned for an outcome to which the last hook has answered. -/
theorem result?_of_reply {o : Outcome} {reply : Reply Unit}
    (hcrashes : reply = .crashed → o = .crashed)
    (hreturns : reply ≠ .crashed → o = .ended (faultsOf s reply)) :
    (o.result? = none ↔ reply = .crashed) ∧
    (o.result? = some (.ok ()) ↔ firstFault? s = none ∧ (∀ d, s.phase d ≠ .crashed) ∧
      unwritten? s = none ∧ reply = .done ()) ∧
    ∀ error, o.result? = some (.error error) →
      error.Returns (faultsOf s reply) ∧ error.pumpFault? = (firstFault? s).map (·.2) := by
  by_cases hreply : reply = .crashed
  · rw [hcrashes hreply]
    refine ⟨iff_of_true rfl hreply, iff_of_false ?_ ?_, ?_⟩
    · rintro ⟨⟩
    · rintro ⟨-, -, -, hdone⟩
      cases hreply.symm.trans hdone
    · rintro error ⟨⟩
  · rw [hreturns hreply]
    have hreturned : (Outcome.ended (faultsOf s reply)).result? ≠ none := Option.some_ne_none _
    refine ⟨iff_of_false hreturned hreply, ?_, fun error herror => ?_⟩
    · rw [Outcome.result?_ended, faultsOf_eq_nil_iff s hreply]
    · have hall := RelayError.returns_of_join (Outcome.join_of_result? herror)
      refine ⟨hall, ?_⟩
      rw [RelayError.pumpFault?_eq, hall.faults, findSome?_faultsOf]

/-- The last DISCONNECT fails when the relay ends just if it is due and not written. -/
theorem unwritten?_iff (g : Gate σ) (session : Session) (hooks : σ) {before after : List Event}
    {error : CodecError} (hrunning : (run g (.start session hooks) before).outcome = none)
    (hstill : Still (conclude g (run g (.start session hooks) before)).1
      (run g (.start session hooks) (before ++ .conclude :: after))) :
    unwritten? (run g (.start session hooks) before) = some error ↔
      LeavesInVain g (.start session hooks) (before ++ .conclude :: after) error := by
  have hends := run_ends g session hooks before
  have hend := conclude_concludes g (run g (.start session hooks) before)
  have hleaves := leavesBroker_iff_failsFirst g session hooks (before ++ .conclude :: after)
  rw [leavesBroker_congr (hstill.exits.trans hend.exits)
    fun d => (hstill.phase d).trans (hend.phase d)] at hleaves
  have hbroken {text : String} (h : ((run g (.start session hooks) before).sink
      .toBroker).outlet.broken = some text) : ((run g (.start session hooks)
      (before ++ .conclude :: after)).sink .toBroker).outlet.broken = some text := by
    rw [run_append]
    exact run_stays_broken h
  generalize run g (.start session hooks) before = t at *
  constructor
  · intro hunwritten
    unfold unwritten? at hunwritten
    split at hunwritten
    case isFalse => cases hunwritten
    case isTrue hdue =>
      obtain ⟨text, htext, rfl⟩ := Option.map_eq_some_iff.mp hunwritten
      obtain ⟨hintact, hdenied⟩ := hleaves.mp hdue
      refine ⟨hdenied, hintact, fun octets hleft => ?_, text, hbroken htext, rfl⟩
      obtain ⟨reply, hjournal, -⟩ := conclude_outcome g t
      rw [hstill.journal, hjournal, leaveBroker_of_broken hdue htext] at hleft
      have hearlier : .left octets ∈ t.journal := by simpa using hleft
      cases hends.running hrunning _ hearlier
  · rintro ⟨hdenied, hintact, hunwritten, text, htext, rfl⟩
    have hdue := hleaves.mpr ⟨hintact, hdenied⟩
    unfold unwritten?
    rw [if_pos hdue]
    cases hopen : (t.sink .toBroker).outlet.broken with
    | none =>
      have hleft := (conclude_left (g := g) hopen (hends.running hrunning)).mpr hdue
      rw [← hstill.journal] at hleft
      exact absurd hleft (hunwritten farewell)
    | some text' =>
      cases htext.symm.trans (hbroken hopen)
      rfl

/-- A relay that has come to its end has called its last hook last, and has crashed if that hook
has. If not, its faults are, in this order: the error of the pump that failed first, with the id
that the session has in the end, the crash of each pump, the failure of the last DISCONNECT and the
refusal of the last hook. It returns no error just if none of these occurred, and otherwise all of
them, joined if they are several, and the error of the pump can be told from what it returns. -/
theorem returns_what_failed (g : Gate σ) (first : Session) (hooks : σ) (events : List Event)
    (o : Outcome) (hout : (run g (.start first hooks) events).outcome = some o) :
    let s := run g (.start first hooks) events
    ∃ earlier reply pump unwritten faults,
      s.journal = earlier ++ [.disconnected s.session reply] ∧
      (∀ d fault, pump = some (d, fault) ↔ FailsFirst g (.start first hooks) events d fault) ∧
      (∀ error, unwritten = some error ↔ LeavesInVain g (.start first hooks) events error) ∧
      faults = pump.toList.map (fun e => .pump e.1 s.session.shownId e.2) ++
        ((if s.phase .toBroker = .crashed then [.crashed .toBroker] else []) ++
          (if s.phase .toClient = .crashed then [.crashed .toClient] else [])) ++
        unwritten.toList.map .brokerDisconnect ++ lastFault reply ∧
      (o.result? = none ↔ reply = .crashed) ∧
      (o.result? = some (.ok ()) ↔ (∀ d fault, s.phase d ≠ .ended (some fault)) ∧
        (∀ d, s.phase d ≠ .crashed) ∧
        (∀ error, ¬ LeavesInVain g (.start first hooks) events error) ∧ reply = .done ()) ∧
      ∀ error, o.result? = some (.error error) →
        error.Returns faults ∧ error.pumpFault? = pump.map (·.2) := by
  intro s
  have hended : s.outcome ≠ none := by
    rw [hout]
    exact Option.some_ne_none o
  obtain ⟨before, after, rfl, hrunning, -, hstill⟩ := run_concluded g first hooks hended
  have hunwritten (error : CodecError) :
      unwritten? (run g (.start first hooks) before) = some error ↔
        LeavesInVain g (.start first hooks) (before ++ .conclude :: after) error :=
    unwritten?_iff g first hooks hrunning hstill
  have hfails (d : Direction) (fault : PumpFault) : firstFault? s = some (d, fault) ↔
      FailsFirst g (.start first hooks) (before ++ .conclude :: after) d fault :=
    firstFault?_iff_failsFirst g first hooks _
  have hnone : firstFault? s = none ↔ ∀ d fault, s.phase d ≠ .ended (some fault) :=
    (run_reports g first hooks _).firstFault?_eq_none_iff
  generalize run g (.start first hooks) before = t at hstill hunwritten
  -- what the relay has come to is the same as when it ended
  have hend := conclude_concludes g t
  have hphase (d : Direction) : s.phase d = t.phase d := (hstill.phase d).trans (hend.phase d)
  have hsession : s.session = t.session := hstill.session.trans hend.session
  have hfirst : firstFault? s = firstFault? t := by
    rw [firstFault?, hstill.exits.trans hend.exits, firstFault?]
  obtain ⟨reply, hjournal, hcrashes, hreturns⟩ := conclude_outcome g t
  have ho : (conclude g t).1.outcome = some o := hstill.outcome.symm.trans hout
  have hcrash (h : reply = .crashed) : o = .crashed :=
    Option.some.inj (ho.symm.trans (hcrashes h))
  have hreturn (h : reply ≠ .crashed) : o = .ended (faultsOf t reply) :=
    Option.some.inj (ho.symm.trans (hreturns h))
  obtain ⟨hcrashed, hok, herror⟩ := result?_of_reply hcrash hreturn
  refine ⟨(leaveBroker t).1.journal, reply, firstFault? s, unwritten? t, faultsOf t reply, ?_,
    hfails, hunwritten, ?_, hcrashed, ?_, ?_⟩
  · rw [hstill.journal, hjournal, hsession]
  · rw [faultsOf, leaveBroker_unwritten, crashes_eq, hfirst, hsession, hphase, hphase]
  · rw [hok, ← hfirst, hnone, Option.eq_none_iff_forall_ne_some]
    simp only [hphase, ← hunwritten, ne_eq]
  · rwa [hfirst]

def hostile : Gate Unit :=
  ⟨{ secluded.handler with disconnected := fun _ s => (.refused ["locked"], s) }, none⟩

def cutOff : List Event :=
  delivering ++ .peer .toClient (.failWriting "gone") :: parting

theorem returns_three_faults :
    (run hostile (.start {} ()) cutOff).outcome = some (.ended
      [.pump .toClient "unknown" (.deliveryDenied ["secluded"]), .brokerDisconnect (.io "gone"),
        .disconnect ["locked"]]) ∧
    ∃ d, FailsFirst hostile (.start {} ()) cutOff d (.deliveryDenied ["secluded"]) := by
  have hout : (run hostile (.start {} ()) cutOff).outcome = some (.ended
      [.pump .toClient "unknown" (.deliveryDenied ["secluded"]), .brokerDisconnect (.io "gone"),
        .disconnect ["locked"]]) := by
    decide +kernel
  obtain ⟨_, _, pump, _, _, -, hfails, -, -, -, -, hreturns⟩ :=
    returns_what_failed hostile {} () cutOff _ hout
  obtain ⟨-, hpump⟩ := hreturns _ rfl
  obtain ⟨⟨d, fault⟩, rfl, hfault⟩ := Option.map_eq_some_iff.mp hpump.symm
  obtain rfl : fault = .deliveryDenied ["secluded"] := hfault
  exact ⟨hout, d, (hfails d _).mp rfl⟩

end Relay
end MqttGateway
