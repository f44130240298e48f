import MqttGateway.Proofs.Packet.Readers
import MqttGateway.Proofs.Packet.WireForm
/-!
# Packets that were decoded

A packet that was read from a frame fits into the wire form of its kind, and takes no more room
there than it was read from: the frame may have had a longer length, other flags or something behind
the last field, but it had every field that is written.
-/
namespace MqttGateway

namespace Packet

open PacketReader

variable {bs rest : Octets} {flags mask head : UInt8}

/-- The packet can be written behind a length, in so many octets at most, and the wire tells all of
it. -/
structure Renewable (p : Packet) (room : Nat) : Prop where
  fits : p.Fits
  remaining : p.remaining ≤ room
  onWire : p.onWire = p

/-! ## CONNECT -/

theorem reads_protocol_iff {name : String} {level c : UInt8} :
    protocol name level bs = .ok (c, rest) ↔
      ((name = "MQTT" ∧ level = 4) ∨ (name = "MQIsdp" ∧ level = 3)) ∧ level = c ∧ bs = rest := by
  unfold protocol
  split
  case isTrue h => simp [h]
  case isFalse h => simp [h]

theorem reads_will {w : Will} (h : will flags bs = .ok (w, rest)) :
    ((Utf8.encode w.topic).length ≤ 65535 ∧ w.payload.length ≤ 65535 ∧ w.qos ≤ 2) ∧
      bs = w.write ++ rest := by
  simp only [will, reads_bind_iff, reads_text_iff, reads_field_iff, reads_qos_iff,
    reads_pure_iff] at h
  obtain ⟨topic, _, ⟨htopic, rfl⟩, payload, _, ⟨hpayload, rfl⟩, _, _, ⟨hlevel, rfl, rfl⟩, rfl,
    rfl⟩ := h
  exact ⟨⟨htopic, hpayload, hlevel⟩, (List.append_assoc ..).symm⟩

/-- A field is there in its written form or not at all. -/
theorem reads_whenSet {α : Type} {item : PacketReader α} (write : α → Octets) (P : α → Prop)
    {field : Option α} (hitem : ∀ {bs a rest}, item bs = .ok (a, rest) → P a ∧ bs = write a ++ rest)
    (h : whenSet flags mask item bs = .ok (field, rest)) :
    (∀ a ∈ field, P a) ∧ bs = (field.map write).getD [] ++ rest := by
  unfold whenSet at h
  split at h
  case isTrue =>
    obtain ⟨a, ha, rfl⟩ := reads_map_iff.mp h
    obtain ⟨hP, hbs⟩ := hitem ha
    refine ⟨?_, hbs⟩
    rintro _ ⟨⟩
    exact hP
  case isFalse =>
    obtain ⟨rfl, rfl⟩ := reads_pure_iff.mp h
    exact ⟨nofun, rfl⟩

theorem length_writeFields (c : Connect) : c.writeFields.length =
    1 + 2 + (Field.write (Utf8.encode c.clientId)).length
      + ((c.will.map Will.write).getD []).length
      + ((c.username.map (Field.write ∘ Utf8.encode)).getD []).length
      + ((c.password.map Field.write).getD []).length := by
  simp only [Connect.writeFields, List.length_append, List.length_singleton, Octets.length_ofUInt16]

/-- A CONNECT that was read is written in as many octets, whatever its flags were. -/
theorem reads_connect {c : Connect} (h : readConnect bs = .ok (c, rest)) :
    c.Fits ∧ (c.level = 3 ∨ c.level = 4) ∧ bs.length = c.body.length + rest.length := by
  simp only [readConnect, reads_bind_iff, reads_text_iff, reads_octet_iff, reads_protocol_iff,
    reads_uint16_iff, reads_pure_iff] at h
  obtain ⟨name, _, ⟨-, rfl⟩, level, _, rfl, _, _, ⟨hknown, rfl, rfl⟩, flags, _, rfl, keepAlive, _,
    rfl, clientId, _, ⟨hclientId, rfl⟩, will, afterWill, hwill, username, afterUsername,
    husername, password, afterPassword, hpassword, rfl, rfl⟩ := h
  obtain ⟨hwillFits, rfl⟩ := reads_whenSet _ _ reads_will hwill
  obtain ⟨husernameFits, rfl⟩ := reads_whenSet (Field.write ∘ Utf8.encode)
    (fun s => (Utf8.encode s).length ≤ 65535) reads_text_iff.mp husername
  obtain ⟨hpasswordFits, rfl⟩ := reads_whenSet _ _ reads_field_iff.mp hpassword
  refine ⟨⟨hclientId, husernameFits, hpasswordFits, fun w hw => (hwillFits w hw).1,
    fun w hw => (hwillFits w hw).2.1, fun w hw => (hwillFits w hw).2.2⟩, ?_, ?_⟩
  · rcases hknown with ⟨-, hlevel⟩ | ⟨-, hlevel⟩
    · exact .inr hlevel
    · exact .inl hlevel
  · have hopens : (Field.write (Utf8.encode name)).length + 1 =
        (Connect.protocol level).length := by
      rcases hknown with ⟨rfl, rfl⟩ | ⟨rfl, rfl⟩ <;> decide +kernel
    simp only [Connect.body, List.length_append, length_writeFields, ← hopens, List.length_cons,
      Octets.length_ofUInt16]
    omega

theorem renewable_connect {c : Connect} (h : readConnect bs = .ok (c, rest)) :
    Renewable (.connect c) bs.length := by
  obtain ⟨hfits, hlevel, hlength⟩ := reads_connect h
  refine ⟨hfits, ?_, ?_⟩
  · show c.size + (if c.level = 3 then 2 else 0) ≤ bs.length
    rw [← c.length_body, hlength]
    exact Nat.le_add_right _ _
  · show Packet.connect { c with level := Connect.wireLevel c.level } = .connect c
    have hwire : Connect.wireLevel c.level = c.level := by
      rcases hlevel with h | h <;> rw [h] <;> rfl
    rw [hwire]

/-! ## PUBLISH -/

def IdFits (level : UInt8) (id : Option UInt16) : Prop :=
  level = 0 ∧ id = none ∨ level ≠ 0 ∧ ∃ n, id = some n ∧ n ≠ 0

def writeFront (topic : String) (id : Option UInt16) : Octets :=
  Field.write (Utf8.encode topic) ++ (id.map Octets.ofUInt16).getD []

theorem reads_publishFields_iff {topic : String} {level : UInt8} {id : Option UInt16} :
    publishFields head bs = .ok ((topic, level, id), rest) ↔
      (Utf8.encode topic).length ≤ 65535 ∧ level = (head >>> 1) &&& 3 ∧ IdFits level id ∧
        bs = writeFront topic id ++ rest := by
  simp only [publishFields, reads_bind_iff, reads_text_iff]
  by_cases hlevel : (head >>> 1) &&& 3 = 0
  · simp only [hlevel, if_true, reads_bind_iff, reads_pure_iff, Prod.mk.injEq]
    constructor
    · rintro ⟨_, _, ⟨htopic, rfl⟩, _, _, ⟨rfl, rfl⟩, ⟨rfl, rfl, rfl⟩, rfl⟩
      exact ⟨htopic, rfl, .inl ⟨rfl, rfl⟩, by simp [writeFront]⟩
    · rintro ⟨htopic, rfl, ⟨-, rfl⟩ | ⟨hne, -⟩, rfl⟩
      · exact ⟨topic, rest, ⟨htopic, by simp [writeFront]⟩, none, rest, ⟨rfl, rfl⟩, ⟨rfl, rfl, rfl⟩,
          rfl⟩
      · exact absurd rfl hne
  · simp only [hlevel, if_false, reads_bind_iff, reads_map_iff, reads_packetId_iff, reads_pure_iff,
      Prod.mk.injEq]
    constructor
    · rintro ⟨_, _, ⟨htopic, rfl⟩, _, _, ⟨n, ⟨hn, rfl⟩, rfl⟩, ⟨rfl, rfl, rfl⟩, rfl⟩
      exact ⟨htopic, rfl, .inr ⟨hlevel, n, rfl, hn⟩, by simp [writeFront]⟩
    · rintro ⟨htopic, rfl, ⟨h0, -⟩ | ⟨-, n, rfl, hn⟩, rfl⟩
      · exact absurd h0 hlevel
      · exact ⟨topic, Octets.ofUInt16 n ++ rest, ⟨htopic, by simp [writeFront]⟩, some n, rest,
          ⟨n, ⟨hn, rfl⟩, rfl⟩, ⟨rfl, rfl, rfl⟩, rfl⟩

theorem length_publishFields {p : Publish} (h : IdFits p.qos p.packetId) :
    p.size = (writeFront p.topic p.packetId).length + p.payload.length := by
  rw [Publish.size, writeFront, List.length_append, Field.length_write]
  rcases h with ⟨h0, hid⟩ | ⟨h0, id, hid, -⟩
  · rw [if_pos h0, hid]
    rfl
  · rw [if_neg h0, hid]
    rfl

/-- The payload takes the place that the declared length leaves for it. -/
theorem renewable_publish {p : Publish} {length : Nat} (hlength : length = bs.length)
    (hlevel : (head >>> 1) &&& 3 ≤ 2) (h : readPublish head length bs = .ok (p, rest)) :
    Renewable (.publish p) length := by
  unfold readPublish at h
  obtain ⟨⟨⟨topic, level, packetId⟩, after⟩, hfields, h⟩ := bind_eq_ok_iff.mp h
  dsimp only at h
  split at h
  case isTrue => cases h
  case isFalse hused =>
    cases h
    obtain ⟨htopic, rfl, hid, hbs⟩ := reads_publishFields_iff.mp hfields
    refine ⟨⟨htopic, ?_⟩, ?_, ?_⟩
    · rcases hid with ⟨h0, -⟩ | ⟨h0, hid⟩
      · exact .inl h0
      · exact .inr ⟨(qos_cases hlevel).resolve_left h0, hid⟩
    · have hfront := congrArg List.length hbs
      rw [List.length_append] at hfront
      show Publish.size _ ≤ length
      rw [length_publishFields hid, List.length_take]
      dsimp only
      omega
    · rcases hid with ⟨h0, rfl⟩ | ⟨h0, id, rfl, -⟩ <;> simp [onWire, h0]

/-! ## SUBSCRIBE and UNSUBSCRIBE -/

theorem reads_subscription_iff {s : Subscription} : subscription bs = .ok (s, rest) ↔
    ((Utf8.encode s.filter).length ≤ 65535 ∧ s.qos ≤ 2) ∧ bs = s.write ++ rest := by
  constructor
  · intro h
    simp only [subscription, reads_bind_iff, reads_text_iff, reads_octet_iff, reads_qos_iff,
      reads_pure_iff] at h
    obtain ⟨filter, _, ⟨hfilter, rfl⟩, level, _, rfl, _, _, ⟨hlevel, rfl, rfl⟩, rfl, rfl⟩ := h
    refine ⟨⟨hfilter, hlevel⟩, ?_⟩
    rw [Subscription.write, List.append_assoc]
    rfl
  · rintro ⟨⟨hfilter, hlevel⟩, rfl⟩
    exact subscription_reads hfilter hlevel rest

/-- A packet id and the items behind it were read from their written forms. -/
theorem reads_listed {α β : Type} {item : PacketReader α} (write : α → Octets) (P : α → Prop)
    (make : UInt16 → List α → β) {stop : Nat} {b : β}
    (hitem : ∀ {bs a rest}, item bs = .ok (a, rest) → P a ∧ bs = write a ++ rest)
    (h : (do
      let id ← packetId
      let items ← (untilLeft item stop : PacketReader (List α))
      return make id items : PacketReader β) bs = .ok (b, rest)) :
    ∃ id items, b = make id items ∧ id ≠ 0 ∧ (∀ a ∈ items, P a) ∧
      bs = Octets.ofUInt16 id ++ items.flatMap write ++ rest := by
  simp only [reads_bind_iff, reads_packetId_iff, reads_pure_iff] at h
  obtain ⟨id, _, ⟨hid, rfl⟩, items, _, hitems, rfl, rfl⟩ := h
  obtain ⟨hall, rfl⟩ := untilLeft_reads_items hitem hitems
  exact ⟨id, items, rfl, hid, hall, (List.append_assoc ..).symm⟩

theorem renewable_subscribe {s : Subscribe} {length : Nat}
    (h : readSubscribe length bs = .ok (s, rest)) : Renewable (.subscribe s) bs.length := by
  obtain ⟨id, items, rfl, hid, hall, rfl⟩ :=
    reads_listed _ _ Subscribe.mk reads_subscription_iff.mp h
  refine ⟨⟨hid, hall⟩, ?_, rfl⟩
  show Subscribe.size _ ≤ _
  rw [length_subscribe, Subscribe.write]
  simp only [List.length_append]
  omega

theorem renewable_unsubscribe {u : Unsubscribe} {length : Nat}
    (h : readUnsubscribe length bs = .ok (u, rest)) : Renewable (.unsubscribe u) bs.length := by
  obtain ⟨id, items, rfl, hid, hall, rfl⟩ :=
    reads_listed (Field.write ∘ Utf8.encode) (fun s => (Utf8.encode s).length ≤ 65535)
      Unsubscribe.mk reads_text_iff.mp h
  refine ⟨⟨hid, hall⟩, ?_, rfl⟩
  show Unsubscribe.size _ ≤ _
  rw [length_unsubscribe, Unsubscribe.write]
  simp only [List.length_append]
  omega

/-! ## Frames -/

structure Announces (head : UInt8) (kind : PacketKind) : Prop where
  code : PacketKind.ofCode? (head >>> 4).toNat = some kind
  flags : flagsFit kind head = true
  level : kind = .publish → (head >>> 1) &&& 3 ≠ 3

theorem reads_kindOf_iff {kind : PacketKind} :
    kindOf head bs = .ok (kind, rest) ↔ Announces head kind ∧ bs = rest := by
  unfold kindOf
  cases hfound : PacketKind.ofCode? (head >>> 4).toNat with
  | none =>
    refine ⟨nofun, fun ⟨h, _⟩ => ?_⟩
    rw [h.code] at hfound
    cases hfound
  | some found =>
    dsimp only
    by_cases hflags : flagsFit found head = true
    · rw [if_pos hflags]
      by_cases hlevel : found = .publish ∧ (head >>> 1) &&& 3 = 3
      · rw [if_pos hlevel]
        refine ⟨nofun, fun ⟨h, _⟩ => ?_⟩
        cases hfound.symm.trans h.code
        exact absurd hlevel.2 (h.level hlevel.1)
      · rw [if_neg hlevel, reads_pure_iff]
        constructor
        · rintro ⟨rfl, rfl⟩
          exact ⟨⟨hfound, hflags, fun hp h3 => hlevel ⟨hp, h3⟩⟩, rfl⟩
        · rintro ⟨h, rfl⟩
          cases hfound.symm.trans h.code
          exact ⟨rfl, rfl⟩
    · rw [if_neg hflags]
      refine ⟨nofun, fun ⟨h, _⟩ => ?_⟩
      cases hfound.symm.trans h.code
      exact absurd h.flags hflags

/-- A service level of two bits other than 3 is one that there is. -/
theorem level_le_of_ne (head : UInt8) (h : (head >>> 1) &&& 3 ≠ 3) : (head >>> 1) &&& 3 ≤ 2 := by
  have hlt : ((head >>> 1) &&& 3).toNat ≤ 3 := by
    rw [UInt8.toNat_and]
    exact Nat.and_le_right
  have hne : ((head >>> 1) &&& 3).toNat ≠ 3 := fun h3 => h (UInt8.toNat_inj.mp h3)
  rw [UInt8.le_iff_toNat_le]
  show _ ≤ 2
  omega

theorem renewable_of_readBody {data : Octets} {kind : PacketKind} {p : Packet}
    (hkind : Announces head kind) (hp : ∀ kind raw, p ≠ .other kind raw)
    (h : readBody data kind head bs.length bs = .ok (p, rest)) : Renewable p bs.length := by
  have bare {p q : Packet} (h : (pure p : PacketReader Packet) bs = .ok (q, rest))
      (hp : p.Renewable 0) : q.Renewable bs.length := by
    obtain ⟨rfl, -⟩ := reads_pure_iff.mp h
    exact ⟨hp.fits, Nat.le_trans hp.remaining (Nat.zero_le _), hp.onWire⟩
  have kept {kind : PacketKind} {q : Packet} {item : PacketReader Unit}
      (h : (do item; return .other kind data : PacketReader Packet) bs = .ok (q, rest)) :
      q = .other kind data := by
    obtain ⟨_, _, -, h⟩ := reads_bind_iff.mp h
    exact (reads_pure_iff.mp h).1.symm
  cases kind with
  | connect =>
    obtain ⟨c, hc, rfl⟩ := reads_map_iff.mp h
    exact renewable_connect hc
  | publish =>
    obtain ⟨q, hq, rfl⟩ := reads_map_iff.mp h
    exact renewable_publish rfl (level_le_of_ne head (hkind.level rfl)) hq
  | subscribe =>
    obtain ⟨s, hs, rfl⟩ := reads_map_iff.mp h
    exact renewable_subscribe hs
  | unsubscribe =>
    obtain ⟨u, hu, rfl⟩ := reads_map_iff.mp h
    exact renewable_unsubscribe hu
  | pingreq => exact bare h ⟨trivial, Nat.le_refl _, rfl⟩
  | pingresp => exact bare h ⟨trivial, Nat.le_refl _, rfl⟩
  | disconnect => exact bare h ⟨trivial, Nat.le_refl _, rfl⟩
  | _ => exact absurd (kept h) (hp _ _)

/-- A packet that was decoded from a whole frame can be written behind a length, in no more octets
than it had there. -/
theorem renewable_of_decode {after body : Octets} {p : Packet}
    (hread : RemainingLength.read after = .done body.length body)
    (hp : ∀ kind raw, p ≠ .other kind raw) (h : decode (head :: after) = .ok p) :
    Renewable p body.length := by
  rw [decode_cons, hread] at h
  simp only [Nat.lt_irrefl, if_false] at h
  obtain ⟨⟨_, rest⟩, hrun, rfl⟩ := map_eq_ok_iff.mp h
  obtain ⟨kind, _, hkind, hbody⟩ := reads_bind_iff.mp hrun
  obtain ⟨hannounces, rfl⟩ := reads_kindOf_iff.mp hkind
  exact renewable_of_readBody hannounces hp hbody

end Packet
end MqttGateway
