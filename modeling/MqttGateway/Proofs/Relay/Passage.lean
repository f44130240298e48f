import MqttGateway.Proofs.Relay.Runs
/-!
# Passages

A frame passes in a direction when it is taken, somebody authorizes what goes on in its place, the
interceptor lets that go on, and the octets of what is left are written. What a pump has done is the
passages of the frames it has written, one after another, and part of a passage for the frame in
hand.
-/
namespace MqttGateway.Relay

variable {σ : Type} {g : Gate σ} {s t : State σ} {d : Direction}

/-- `calls` have authorized `f` in a direction, and `f'` goes on in its place. -/
inductive Clears (f : Frame) : Direction → List Call → Frame → Prop
  | connect {c : Connect} (seen session : Session) : f.packet = .connect c →
      Clears f .toBroker [.authorizeConnect (seen.withConnect c) (.done session)]
        (f.withIdentity c (seen.withConnect c) session)
  | publish {p : Publish} (seen : Session) (content : Publication) : f.packet = .publish p →
      Clears f .toBroker [.authorizePublish seen p.publication (.done content)]
        (f.withPublication p content)
  | subscribe {p : Subscribe} (seen : Session) (filters : List String) : f.packet = .subscribe p →
      filters ≠ [] →
      Clears f .toBroker [.authorizeSubscribe seen p.filters (.done filters)]
        (f.withFilters p filters)
  | delivery {p : Publish} (seen : Session) (filters : List String) : f.packet = .publish p →
      Clears f .toClient [.authorizeSubscribe seen [p.topic] (.done filters)] f
  | pass {d : Direction} : needsAuthorization d f.packet = false → Clears f d [] f

/-- The interceptor, if there is one, has let `f'` go on in place of `f`. -/
inductive Inspects (g : Gate σ) (d : Direction) (f : Frame) : List Call → Frame → Prop
  | unseen : g.interceptor = none → Inspects g d f [] f
  | intercepted (seen : Session) (f' : Frame) : g.interceptor.isSome →
      Inspects g d f [.intercept seen f d (.done f')] f'

/-- How one frame came to be written. -/
structure Passage (g : Gate σ) (d : Direction) where
  taken : Frame
  authorization : List Call
  cleared : Frame
  inspection : List Call
  forwarded : Frame
  octets : Octets
  clears : Clears taken d authorization cleared
  inspects : Inspects g d cleared inspection forwarded
  wire : forwarded.wire = .ok octets

def Passage.calls (p : Passage g d) : List Call :=
  p.authorization ++ p.inspection

def gateCalls (d : Direction) (j : List Entry) : List Call :=
  (calls d j).filter Call.isGate

/-- A pump is over with `f` still in hand, after these calls about it: the frame was turned away, or
somebody crashed over it, or it was let through and could not be written. -/
inductive Abandons (g : Gate σ) (f : Frame) : Direction → List Call → Phase → Prop
  | again {c : Connect} : f.packet = .connect c →
      Abandons g f .toBroker [] (.ended (some (.unauthorized secondConnect)))
  | unauthorized {d : Direction} {seen : Session} {call : Call} {q : Phase} :
      Authorizes seen f d call q → q.isOver = true → Abandons g f d [call] q
  | intercepted {d : Direction} {as : List Call} {f' : Frame} {q : Phase} (seen : Session)
      (reply : Reply Frame) : Clears f d as f' → g.interceptor.isSome →
      q = .ofReply .intercepted .writing reply → q.isOver = true →
      Abandons g f d (as ++ [.intercept seen f' d reply]) q
  | unwritten {d : Direction} {as is : List Call} {f' f'' : Frame} (error : CodecError) :
      Clears f d as f' → Inspects g d f' is f'' →
      Abandons g f d (as ++ is) (.ended (some (.write error)))

/-- What has been done in a phase for the frames in hand: the calls that have been made about them.
A pump that is over holds nothing or the one frame over which it ended. -/
def InHand (g : Gate σ) (d : Direction) : Phase → List Frame → List Call → Prop
  | .reading, hand, rest => hand = [] ∧ rest = []
  | .authorizing _ f, hand, rest => hand = [f] ∧ rest = []
  | .storing _ f', hand, rest => ∃ f, hand = [f] ∧ Clears f d rest f'
  | .intercepting _ f', hand, rest => ∃ f, hand = [f] ∧ Clears f d rest f'
  | .writing f'', hand, rest => ∃ f as f' is, hand = [f] ∧ rest = as ++ is ∧ Clears f d as f' ∧
      Inspects g d f' is f''
  | .notifying _ _, hand, rest => hand = [] ∧ rest = []
  | .ended fault, hand, rest => hand = [] ∧ rest = [] ∨
      ∃ f, hand = [f] ∧ Abandons g f d rest (.ended fault)
  | .crashed, hand, rest => hand = [] ∧ rest = [] ∨ ∃ f, hand = [f] ∧ Abandons g f d rest .crashed

theorem InHand.length_le_one {p : Phase} {hand : List Frame} {rest : List Call}
    (h : InHand g d p hand rest) : hand.length ≤ 1 := by
  cases p with
  | reading | authorizing | notifying => simp [h.1]
  | storing | intercepting =>
    obtain ⟨f, rfl, -⟩ := h
    exact Nat.le_refl 1
  | writing =>
    obtain ⟨f, as, f', is, rfl, -⟩ := h
    exact Nat.le_refl 1
  | ended | crashed =>
    rcases h with ⟨rfl, -⟩ | ⟨f, rfl, -⟩
    · exact Nat.zero_le 1
    · exact Nat.le_refl 1

/-- A pump that is over abandons the frame, if one is in hand. -/
theorem inHand_of_abandons {f : Frame} {q : Phase} {rest : List Call} (hover : q.isOver = true)
    (h : Abandons g f d rest q) : InHand g d q [f] rest := by
  cases q with
  | ended fault => exact .inr ⟨f, rfl, h⟩
  | crashed => exact .inr ⟨f, rfl, h⟩
  | _ => cases hover

theorem inHand_nothing {q : Phase} (hover : q.isOver = true) : InHand g d q [] [] := by
  cases q with
  | ended fault => exact .inl ⟨rfl, rfl⟩
  | crashed => exact .inl ⟨rfl, rfl⟩
  | _ => cases hover

theorem Authorizes.isGate {seen : Session} {f : Frame} {call : Call} {q : Phase}
    (h : Authorizes seen f d call q) : call.isGate = true := by
  cases h <;> rfl

/-- The answer to an authorizing call ends the pump, crashes it or clears the frame. -/
theorem Authorizes.inHand {seen : Session} {f : Frame} {call : Call} {q : Phase}
    (h : Authorizes seen f d call q) : InHand g d q [f] [call] := by
  cases hover : q.isOver with
  | true => exact inHand_of_abandons hover (.unauthorized h hover)
  | false =>
    cases h with
    | connect reply hf =>
      cases reply with
      | done session => exact ⟨f, rfl, .connect seen session hf⟩
      | refused | crashed => cases hover
    | publish reply hf =>
      cases reply with
      | done content => exact ⟨f, rfl, .publish seen content hf⟩
      | refused | crashed => cases hover
    | subscribe reply hf =>
      cases reply with
      | done filters =>
        simp only [Phase.ofReply] at hover ⊢
        split
        case isTrue hnone =>
          rw [if_pos hnone] at hover
          cases hover
        case isFalse hne => exact ⟨f, rfl, .subscribe seen filters hf hne⟩
      | refused | crashed => cases hover
    | delivery reply hf =>
      cases reply with
      | done filters => exact ⟨f, rfl, .delivery seen filters hf⟩
      | refused | crashed => cases hover

theorem Notifies.isGate {seen : Session} {p : Packet} {call : Call} {reply : Reply Unit}
    (h : Notifies seen p call reply) : call.isGate = false := by
  cases h <;> rfl

theorem gateCalls_called {call : Call} (h : call.isGate = true) :
    gateCalls d [.called d call] = [call] := by
  simp [gateCalls, calls, h]

theorem gateCalls_told {call : Call} (h : call.isGate = false) :
    gateCalls d [.called d call] = [] := by
  simp [gateCalls, calls, h]

/-- Entries that neither take a frame nor ask about one add nothing to what is in hand. -/
theorem inHand_silent {q : Phase} {hand : List Frame} {rest : List Call} {k : List Entry}
    (htaken : taken d k = []) (hcalls : gateCalls d k = []) (hq : InHand g d q hand rest) :
    InHand g d q (hand ++ taken d k) (rest ++ gateCalls d k) := by
  rw [htaken, hcalls, List.append_nil, List.append_nil]
  exact hq

/-- A turn adds to what has been done for the frame in hand, or it writes the frame and so completes
a passage. -/
theorem Turn.inHand {connected : Bool} {p q : Phase} {e : Option Entry} {hand : List Frame}
    {rest : List Call} (h : Turn g connected d p e q) (hp : InHand g d p hand rest) :
    (forwarded d e.toList = [] ∧
      InHand g d q (hand ++ taken d e.toList) (rest ++ gateCalls d e.toList)) ∨
    ∃ passage : Passage g d, hand = [passage.taken] ∧ rest = passage.calls ∧
      e = some (.wrote d passage.forwarded passage.octets) ∧ InHand g d q [] [] := by
  cases h with
  | halt error =>
    obtain ⟨rfl, rfl⟩ := hp
    exact .inl ⟨rfl, inHand_nothing rfl⟩
  | overrun =>
    obtain ⟨rfl, rfl⟩ := hp
    exact .inl ⟨rfl, inHand_nothing rfl⟩
  | take f =>
    obtain ⟨rfl, rfl⟩ := hp
    exact .inl ⟨rfl, by simp [taken], rfl⟩
  | lookToAuthorize seen f => exact .inl ⟨rfl, inHand_silent rfl rfl hp⟩
  | again hd hf _ =>
    obtain ⟨rfl, rfl⟩ := hp
    subst hd
    exact .inl ⟨rfl, inHand_of_abandons rfl (.again hf)⟩
  | authorize hauth _ =>
    obtain ⟨rfl, rfl⟩ := hp
    refine .inl ⟨rfl, ?_⟩
    rw [Option.toList_some, gateCalls_called hauth.isGate]
    exact hauth.inHand
  | pass hneeds =>
    obtain ⟨rfl, rfl⟩ := hp
    exact .inl ⟨rfl, _, rfl, .pass hneeds⟩
  | store session f => exact .inl ⟨rfl, inHand_silent rfl rfl hp⟩
  | lookToIntercept seen f => exact .inl ⟨rfl, inHand_silent rfl rfl hp⟩
  | @intercept seen f reply hi =>
    obtain ⟨f₀, rfl, hclears⟩ := hp
    refine .inl ⟨rfl, ?_⟩
    rw [Option.toList_some, gateCalls_called rfl]
    cases reply with
    | done f' => exact ⟨f₀, rest, f, _, rfl, rfl, hclears, .intercepted seen f' hi⟩
    | refused causes => exact inHand_of_abandons rfl (.intercepted seen _ hclears hi rfl rfl)
    | crashed => exact inHand_of_abandons rfl (.intercepted seen _ hclears hi rfl rfl)
  | @unseen seen f hi =>
    obtain ⟨f₀, rfl, hclears⟩ := hp
    exact .inl ⟨rfl, f₀, rest, f, [], rfl, rfl, hclears, .unseen hi⟩
  | write hwire =>
    obtain ⟨f, as, f', is, rfl, rfl, hclears, hinspects⟩ := hp
    refine .inr ⟨⟨f, as, f', is, _, _, hclears, hinspects, hwire⟩, rfl, rfl, rfl, ?_⟩
    cases d <;> exact ⟨rfl, rfl⟩
  | unwritten error =>
    obtain ⟨f, as, f', is, rfl, rfl, hclears, hinspects⟩ := hp
    exact .inl ⟨rfl, inHand_silent rfl rfl
      (inHand_of_abandons rfl (.unwritten error hclears hinspects))⟩
  | lookToNotify seen f => exact .inl ⟨rfl, inHand_silent rfl rfl hp⟩
  | @notify seen f call reply hnotifies =>
    obtain ⟨rfl, rfl⟩ := hp
    refine .inl ⟨rfl, inHand_silent rfl (gateCalls_told hnotifies.isGate) ?_⟩
    cases reply with
    | done _ => exact ⟨rfl, rfl⟩
    | refused causes => exact inHand_nothing rfl
    | crashed => exact inHand_nothing rfl
  | untold =>
    obtain ⟨rfl, rfl⟩ := hp
    exact .inl ⟨rfl, rfl, rfl⟩

end MqttGateway.Relay
