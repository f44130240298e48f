import MqttGateway.Proofs.Packet.Decoded
/-!
# Where the decoder stops without an answer

Main statement: the decoder reads beyond the end of its data exactly if a field of fixed size is cut
short there, or if the fields of a PUBLISH take more than its declared length. Fields of variable
size never do that, as they say how long they are.
-/
namespace MqttGateway

def PacketKind.opensWithPair : PacketKind → Bool
  | .connect | .publish | .pingreq | .pingresp | .disconnect => false
  | _ => true

namespace Packet

open PacketReader

variable {bs rest : Octets} {head : UInt8} {length : Nat}

inductive Lacks (head : UInt8) (length : Nat) (body : Octets) : PacketKind → Prop
  | level {name : String} : (Utf8.encode name).length ≤ 65535 →
      body = Field.write (Utf8.encode name) → Lacks head length body .connect
  | flags {name : String} {level : UInt8} {left : Octets} :
      (name = "MQTT" ∧ level = 4) ∨ (name = "MQIsdp" ∧ level = 3) →
      body = Field.write (Utf8.encode name) ++ level :: left → left.length < 3 →
      Lacks head length body .connect
  | publishId {topic : String} {left : Octets} : (Utf8.encode topic).length ≤ 65535 →
      (head >>> 1) &&& 3 ≠ 0 → body = Field.write (Utf8.encode topic) ++ left → left.length < 2 →
      Lacks head length body .publish
  | payload {topic : String} {id : Option UInt16} {left : Octets} :
      (Utf8.encode topic).length ≤ 65535 → IdFits ((head >>> 1) &&& 3) id →
      body = writeFront topic id ++ left → length < (writeFront topic id).length →
      Lacks head length body .publish
  | qos {id : UInt16} {asked : List Subscription} {filter : String} : id ≠ 0 →
      (∀ s ∈ asked, (Utf8.encode s.filter).length ≤ 65535 ∧ s.qos ≤ 2) →
      (Utf8.encode filter).length ≤ 65535 →
      body = Octets.ofUInt16 id ++ asked.flatMap Subscription.write ++
        Field.write (Utf8.encode filter) →
      body.length - length < (Field.write (Utf8.encode filter)).length →
      Lacks head length body .subscribe
  | pair {kind : PacketKind} : kind.opensWithPair = true → body.length < 2 →
      Lacks head length body kind

/-! ## CONNECT -/

theorem whenSet_safe {α : Type} {item : PacketReader α} (flags mask : UInt8) (h : Safe item) :
    Safe (whenSet flags mask item) := by
  unfold whenSet
  split
  · exact h.map some
  · exact .pure none

theorem protocol_safe (name : String) (level : UInt8) : Safe (protocol name level) := by
  unfold protocol
  split
  · exact .pure _
  · exact .refuse _

theorem will_safe (flags : UInt8) : Safe (will flags) :=
  text_safe.bind fun _ => field_safe.bind fun _ => (qos_safe _).bind fun _ => .pure _

theorem length_lt_succ_iff {n : Nat} :
    bs.length < n + 1 ↔ bs = [] ∨ ∃ b left, bs = b :: left ∧ left.length < n := by
  constructor
  · intro hlength
    cases bs with
    | nil => exact .inl rfl
    | cons b left => exact .inr ⟨b, left, rfl, Nat.lt_of_succ_lt_succ hlength⟩
  · rintro (rfl | ⟨b, left, rfl, hleft⟩)
    · exact Nat.succ_pos n
    · exact Nat.succ_lt_succ hleft

theorem overruns_connect_iff :
    readConnect bs = .error .overrun ↔ Lacks head length bs .connect := by
  have htail (level flags : UInt8) (keepAlive : UInt16) : Safe (do
      let clientId ← text
      let will ← whenSet flags 0x04 (will flags)
      let username ← whenSet flags 0x80 text
      let password ← whenSet flags 0x40 field
      return (⟨level, clientId, flags &&& 0x02 ≠ 0, keepAlive, username, password, will⟩ :
        Connect)) :=
    text_safe.bind fun _ => (whenSet_safe _ _ (will_safe _)).bind fun _ =>
      (whenSet_safe _ _ text_safe).bind fun _ => (whenSet_safe _ _ field_safe).bind fun _ => .pure _
  simp only [readConnect, text_safe.overruns_bind_iff, @overruns_bind_iff _ _ octet,
    overruns_octet_iff, (protocol_safe _ _).overruns_bind_iff, overruns_bind_safe_iff (htail _ _),
    overruns_uint16_iff, ← length_lt_succ_iff, reads_text_iff, reads_octet_iff, reads_protocol_iff]
  constructor
  · rintro ⟨name, _, ⟨hname, rfl⟩, rfl | ⟨level, _, rfl, _, left, ⟨hknown, -, rfl⟩, hleft⟩⟩
    · exact .level hname (List.append_nil _)
    · exact .flags hknown rfl hleft
  · rintro (@⟨name, hname, rfl⟩ | @⟨name, level, left, hknown, rfl, hleft⟩ | _ | _ | _ | ⟨hpair, -⟩)
    · exact ⟨name, [], ⟨hname, (List.append_nil _).symm⟩, .inl rfl⟩
    · have hname : (Utf8.encode name).length ≤ 65535 := by
        rcases hknown with ⟨rfl, -⟩ | ⟨rfl, -⟩ <;> decide +kernel
      exact ⟨name, level :: left, ⟨hname, rfl⟩,
        .inr ⟨level, left, rfl, level, left, ⟨hknown, rfl, rfl⟩, hleft⟩⟩
    · cases hpair

/-! ## PUBLISH -/

theorem overruns_publishFields_iff : publishFields head bs = .error .overrun ↔
    ∃ topic left, (Utf8.encode topic).length ≤ 65535 ∧ (head >>> 1) &&& 3 ≠ 0 ∧
      bs = Field.write (Utf8.encode topic) ++ left ∧ left.length < 2 := by
  simp only [publishFields, text_safe.overruns_bind_iff, reads_text_iff]
  by_cases hlevel : (head >>> 1) &&& 3 = 0
  · have hsafe (topic : String) : Safe (do
        let id ← (pure none : PacketReader (Option UInt16))
        return (topic, (head >>> 1) &&& 3, id)) :=
      (Safe.pure none).bind fun _ => .pure _
    simp only [hlevel, if_true] at hsafe ⊢
    simp only [ne_eq, not_true_eq_false, false_and, and_false, exists_false, iff_false]
    rintro ⟨topic, left, -, hover⟩
    exact hsafe topic left hover
  · have hsafe (topic : String) (id : Option UInt16) :
        Safe (pure (topic, (head >>> 1) &&& 3, id)) :=
      .pure _
    simp only [hlevel, if_false, overruns_bind_safe_iff (hsafe _), overruns_map_iff,
      overruns_packetId_iff]
    constructor
    · rintro ⟨topic, left, ⟨htopic, rfl⟩, hleft⟩
      exact ⟨topic, left, htopic, hlevel, rfl, hleft⟩
    · rintro ⟨topic, left, htopic, -, rfl, hleft⟩
      exact ⟨topic, left, ⟨htopic, rfl⟩, hleft⟩

theorem overruns_publish_iff :
    readPublish head length bs = .error .overrun ↔ Lacks head length bs .publish := by
  unfold readPublish
  constructor
  · intro hover
    cases hfields : publishFields head bs with
    | error halt =>
      rw [hfields] at hover
      cases hover
      obtain ⟨topic, left, htopic, hlevel, hbs, hleft⟩ := overruns_publishFields_iff.mp hfields
      exact .publishId htopic hlevel hbs hleft
    | ok found =>
      obtain ⟨⟨topic, level, id⟩, left⟩ := found
      obtain ⟨htopic, rfl, hid, hbs⟩ := reads_publishFields_iff.mp hfields
      simp only [hfields, bind, Except.bind] at hover
      split at hover
      case isTrue hused =>
        refine .payload htopic hid hbs ?_
        rwa [hbs, List.length_append, Nat.add_sub_cancel] at hused
      case isFalse => cases hover
  · rintro (_ | _ | @⟨topic, left, htopic, hlevel, hbs, hleft⟩ |
      @⟨topic, id, left, htopic, hid, hbs, hused⟩ | _ | ⟨hpair, -⟩)
    · rw [overruns_publishFields_iff.mpr ⟨topic, left, htopic, hlevel, hbs, hleft⟩]
      rfl
    · rw [reads_publishFields_iff.mpr ⟨htopic, rfl, hid, hbs⟩]
      simp only [bind, Except.bind]
      rw [if_pos (by rwa [hbs, List.length_append, Nat.add_sub_cancel])]
    · cases hpair

/-! ## Lists behind a packet id -/

theorem overruns_subscription_iff : subscription bs = .error .overrun ↔
    ∃ filter, (Utf8.encode filter).length ≤ 65535 ∧ bs = Field.write (Utf8.encode filter) := by
  have hsafe (filter : String) (code : UInt8) :
      Safe (do let level ← qos code; return (⟨filter, level⟩ : Subscription)) :=
    (qos_safe code).bind fun _ => .pure _
  simp only [subscription, text_safe.overruns_bind_iff, overruns_bind_safe_iff (hsafe _),
    overruns_octet_iff, reads_text_iff]
  constructor
  · rintro ⟨filter, _, ⟨hfilter, rfl⟩, rfl⟩
    exact ⟨filter, hfilter, List.append_nil _⟩
  · rintro ⟨filter, hfilter, rfl⟩
    exact ⟨filter, [], ⟨hfilter, (List.append_nil _).symm⟩, rfl⟩

theorem overruns_subscribe_iff :
    readSubscribe length bs = .error .overrun ↔ Lacks head length bs .subscribe := by
  have hwrite (s : Subscription) : s.write ≠ [] := by simp [Subscription.write]
  have hsafe (id : UInt16) (subscriptions : List Subscription) :
      Safe (pure (⟨id, subscriptions⟩ : Subscribe)) :=
    .pure _
  simp only [readSubscribe, @overruns_bind_iff _ _ packetId, overruns_packetId_iff,
    overruns_bind_safe_iff (hsafe _), untilEnd,
    overruns_untilLeft_iff reads_subscription_iff hwrite, reads_packetId_iff,
    overruns_subscription_iff]
  constructor
  · rintro (hshort | ⟨id, _, ⟨hid, rfl⟩, asked, mid, hasked, rfl, hstop, filter, hfilter, rfl⟩)
    · exact .pair rfl hshort
    · exact .qos hid hasked hfilter (List.append_assoc ..).symm hstop
  · rintro (_ | _ | _ | _ | @⟨id, asked, filter, hid, hasked, hfilter, hbs, hstop⟩ | ⟨-, hshort⟩)
    · exact .inr ⟨id, _, ⟨hid, by rw [hbs, List.append_assoc]⟩, asked, _, hasked, rfl, hstop, filter,
        hfilter, rfl⟩
    · exact .inl hshort

theorem overruns_unsubscribe_iff :
    readUnsubscribe length bs = .error .overrun ↔ bs.length < 2 := by
  rw [← overruns_packetId_iff]
  refine overruns_bind_safe_iff fun id => ?_
  refine Safe.bind (untilLeft_safe _ fun bs hover => absurd hover (text_safe bs)) fun _ => .pure _

/-! ## Packets that are kept as they are -/

theorem overruns_checkConnack_iff : checkConnack bs = .error .overrun ↔ bs.length < 2 := by
  have hsafe (code : UInt8) :
      Safe (if code ≤ 5 then pure () else refuse (.returnCode code) : PacketReader Unit) := by
    split
    · exact .pure _
    · exact .refuse _
  simp only [checkConnack, @overruns_bind_iff _ _ (discard octet), overruns_discard_iff,
    overruns_octet_iff, overruns_bind_safe_iff hsafe, reads_discard_iff, reads_octet_iff]
  rw [length_lt_succ_iff]
  simp only [length_lt_succ_iff, Nat.not_lt_zero]
  constructor
  · rintro (hnil | ⟨_, left, ⟨b, hbs⟩, hleft⟩)
    · exact .inl hnil
    · exact .inr ⟨b, left, hbs, .inl hleft⟩
  · rintro (hnil | ⟨b, left, hbs, hleft | ⟨_, _, _, ⟨⟩⟩⟩)
    · exact .inl hnil
    · exact .inr ⟨(), left, ⟨b, hbs⟩, hleft⟩

theorem overruns_checkSuback_iff : checkSuback length bs = .error .overrun ↔ bs.length < 2 := by
  have hgrant (bs : Octets) (hover : grant bs = .error .overrun) : bs = [] := by
    rw [← overruns_octet_iff]
    refine (overruns_bind_safe_iff fun code => ?_).mp hover
    split
    · exact .pure _
    · exact (qos_safe code).map _
  rw [← overruns_packetId_iff, ← @overruns_discard_iff _ packetId]
  exact overruns_bind_safe_iff fun _ => (untilLeft_safe _ hgrant).map _

/-- A packet that is kept as it is lacks an octet if what is looked at does. -/
theorem overruns_kept_iff {item : PacketReader Unit} {kind : PacketKind} {data : Octets}
    (hkind : kind.opensWithPair = true) (hkept : kind ≠ .subscribe)
    (h : item bs = .error .overrun ↔ bs.length < 2) :
    (do item; return .other kind data : PacketReader Packet) bs = .error .overrun ↔
      Lacks head length bs kind := by
  have hsafe (u : Unit) : Safe (pure (.other kind data) : PacketReader Packet) := .pure _
  rw [overruns_bind_safe_iff hsafe, h]
  constructor
  · exact .pair hkind
  · intro hlacks
    cases hlacks with
    | pair _ hshort => exact hshort
    | qos => exact absurd rfl hkept
    | _ => cases hkind

/-! ## Frames -/

theorem overruns_readBody_iff {data : Octets} {kind : PacketKind} :
    readBody data kind head length bs = .error .overrun ↔ Lacks head length bs kind := by
  have bare (p : Packet) (hkind : kind = .pingreq ∨ kind = .pingresp ∨ kind = .disconnect) :
      (pure p : PacketReader Packet) bs = .error .overrun ↔ Lacks head length bs kind := by
    refine iff_of_false (Safe.pure p bs) fun hlacks => ?_
    rcases hkind with rfl | rfl | rfl <;> cases hlacks <;> contradiction
  have hid : discard packetId bs = .error .overrun ↔ bs.length < 2 := by
    rw [overruns_discard_iff, overruns_packetId_iff]
  cases kind with
  | connect => exact overruns_map_iff.trans overruns_connect_iff
  | publish => exact overruns_map_iff.trans overruns_publish_iff
  | subscribe => exact overruns_map_iff.trans overruns_subscribe_iff
  | unsubscribe =>
    refine (overruns_map_iff.trans overruns_unsubscribe_iff).trans ⟨.pair rfl, ?_⟩
    intro hlacks
    cases hlacks with
    | pair _ hshort => exact hshort
  | pingreq => exact bare _ (.inl rfl)
  | pingresp => exact bare _ (.inr (.inl rfl))
  | disconnect => exact bare _ (.inr (.inr rfl))
  | connack => exact overruns_kept_iff rfl nofun overruns_checkConnack_iff
  | suback => exact overruns_kept_iff rfl nofun overruns_checkSuback_iff
  | _ => exact overruns_kept_iff rfl nofun hid

def CutsShort (data : Octets) : Prop :=
  ∃ head lengths body length kind, data = head :: (lengths ++ body) ∧
    RemainingLength.Spells lengths length ∧ length ≤ body.length ∧ Announces head kind ∧
    Lacks head length body kind

theorem kindOf_safe (head : UInt8) : Safe (kindOf head) := by
  unfold kindOf
  split
  case h_2 => exact .refuse _
  case h_1 =>
    split
    case isFalse => exact .refuse _
    case isTrue =>
      split
      · exact .refuse _
      · exact .pure _

theorem cutsShort_cons_iff {after : Octets} : CutsShort (head :: after) ↔
    ∃ length body kind, RemainingLength.read after = .done length body ∧ length ≤ body.length ∧
      Announces head kind ∧ Lacks head length body kind := by
  simp only [RemainingLength.read_eq_done_iff]
  constructor
  · rintro ⟨_, lengths, body, length, kind, heq, hspells, h⟩
    cases heq
    exact ⟨length, body, kind, ⟨lengths, hspells, rfl⟩, h⟩
  · rintro ⟨length, body, kind, ⟨lengths, hspells, rfl⟩, h⟩
    exact ⟨head, lengths, body, length, kind, rfl, hspells, h⟩

/-- The decoder stops without an answer exactly if the data is cut short. -/
theorem decode_overruns_iff (data : Octets) :
    decode data = .error .overrun ↔ CutsShort data := by
  cases data with
  | nil =>
    refine iff_of_false nofun ?_
    rintro ⟨_, _, _, _, _, ⟨⟩, -⟩
  | cons head after =>
    rw [cutsShort_cons_iff, decode_cons]
    cases hread : RemainingLength.read after with
    | short =>
      refine iff_of_false nofun ?_
      rintro ⟨_, _, _, ⟨⟩, -⟩
    | overlong =>
      refine iff_of_false nofun ?_
      rintro ⟨_, _, _, ⟨⟩, -⟩
    | done length body =>
      by_cases hlength : body.length < length
      · refine iff_of_false ?_ ?_
        · simp [hlength]
        · rintro ⟨_, _, _, ⟨⟩, hle, -⟩
          omega
      · have hmap (item : PacketReader Packet) : (item.run body).map (·.1) = .error .overrun ↔
            item body = .error .overrun := by
          show (item body).map (·.1) = .error .overrun ↔ _
          cases item body with
          | ok found => exact ⟨nofun, nofun⟩
          | error halt => exact ⟨by rintro ⟨⟩; rfl, by rintro ⟨⟩; rfl⟩
        simp only [hlength, if_false, hmap, (kindOf_safe head).overruns_bind_iff, reads_kindOf_iff,
          overruns_readBody_iff]
        constructor
        · rintro ⟨kind, _, ⟨hannounces, rfl⟩, hlacks⟩
          exact ⟨length, body, kind, rfl, Nat.not_lt.mp hlength, hannounces, hlacks⟩
        · rintro ⟨_, _, kind, ⟨⟩, -, hannounces, hlacks⟩
          exact ⟨kind, body, ⟨hannounces, rfl⟩, hlacks⟩

end Packet

/-- An inlet stops its reader exactly if a frame that is cut short is the next. -/
theorem Inlet.take_overruns_iff {inlet : Inlet} {rest : Octets} :
    inlet.take = .failed .overrun rest ↔
      ∃ octets, IsFrame octets ∧ Packet.CutsShort octets ∧ inlet.arrived = octets ++ rest := by
  obtain ⟨arrived, ending⟩ := inlet
  constructor
  · intro h
    cases arrived with
    | nil => cases ending <;> cases h
    | cons head after =>
      rcases begins head after with hunfinished | hoverlong | ⟨octets, more, hframe, hsplit⟩
      · rw [take_unfinished hunfinished] at h
        cases ending <;> cases h
      · rw [take_overlong hoverlong] at h
        cases h
      · rw [hsplit, take_isFrame hframe] at h
        cases hdecode : Packet.decode octets with
        | ok packet =>
          rw [hdecode] at h
          cases h
        | error halt =>
          rw [hdecode] at h
          cases h
          exact ⟨octets, hframe, (Packet.decode_overruns_iff octets).mp hdecode, hsplit⟩
  · rintro ⟨octets, hframe, hshort, rfl⟩
    rw [take_isFrame hframe, (Packet.decode_overruns_iff octets).mpr hshort]

end MqttGateway
