import MqttGateway.Proofs.Checks
import MqttGateway.Proofs.Frame.Stream
import MqttGateway.Proofs.Packet.Fields
/-!
# Reading back packets

Main statement: whoever is sent the wire form of a PUBLISH, a SUBSCRIBE or an UNSUBSCRIBE reads that
packet, and nothing of what follows it.
-/
namespace MqttGateway

namespace Packet

open PacketReader

variable {head : UInt8} {body octets : Octets} {packet : Packet}

structure Framed (head : UInt8) (body octets : Octets) : Prop where
  eq : octets = frame head body
  fits : body.length ≤ RemainingLength.limit

theorem length_frame (head : UInt8) (body : Octets) : (frame head body).length =
    1 + (RemainingLength.encode body.length).length + body.length := by
  rw [frame, List.length_append, List.length_cons, Nat.add_comm 1]

/-- Room that is reckoned for all of a body is filled by its frame, unless the body is too long. -/
theorem fill_frame {size : Nat} (hsize : size = body.length) :
    fill size (frame head body) =
      if size ≤ RemainingLength.limit then .ok (frame head body)
      else .error (.packetTooLong size) := by
  subst hsize
  rw [fill, RemainingLength.width?_eq, length_frame]
  by_cases hfits : body.length ≤ RemainingLength.limit
  · simp only [if_pos hfits, Nat.lt_irrefl, if_false]
  · simp only [if_neg hfits]

/-- A frame is written exactly if its body is not too long, once room is reckoned for all of it. -/
theorem fill_eq_ok_iff {size : Nat} (hsize : size = body.length) :
    fill size (frame head body) = .ok octets ↔ Framed head body octets := by
  rw [fill_frame hsize, hsize]
  by_cases hfits : body.length ≤ RemainingLength.limit
  · rw [if_pos hfits, Except.ok.injEq]
    exact ⟨fun h => ⟨h.symm, hfits⟩, fun h => h.eq.symm⟩
  · rw [if_neg hfits]
    exact ⟨nofun, fun h => absurd h.fits hfits⟩

/-- A frame is decoded as its body is read. -/
theorem decode_frame {kind : PacketKind} (h : Framed head body octets)
    (hkind : Reads (kindOf head) [] kind)
    (hbody : ∀ data, readBody data kind head body.length body = .ok (packet, [])) :
    decode octets = .ok packet := by
  obtain ⟨rfl, hlimit⟩ := h
  have hkind := hkind body
  rw [List.nil_append] at hkind
  rw [frame, List.cons_append, decode_cons, RemainingLength.read_encode hlimit]
  simp only [Nat.lt_irrefl, if_false, StateT.run, bind, StateT.bind, hkind, Except.bind, hbody,
    Except.map]

theorem Framed.isFrame (h : Framed head body octets) : IsFrame octets := by
  obtain ⟨rfl, hlimit⟩ := h
  exact ⟨head, RemainingLength.encode body.length, body, rfl, RemainingLength.encode_spells hlimit⟩

/-- Whoever reads a frame takes nothing of what follows it. -/
theorem take_frame (h : Framed head body octets) (hpacket : decode octets = .ok packet)
    (rest : Octets) (ending : Ending) :
    Inlet.take ⟨octets ++ rest, ending⟩ = .frame ⟨packet, some octets⟩ rest := by
  rw [Inlet.take_isFrame h.isFrame, hpacket]

/-! ## Checks -/

theorem check_eq_ok_iff {field : Field} {bs : Octets} :
    field.check bs = .ok () ↔ bs.length ≤ 65535 := by
  unfold Field.check
  split
  case isTrue h => exact ⟨nofun, fun hle => absurd h (Nat.not_lt.mpr hle)⟩
  case isFalse h => exact ⟨fun _ => Nat.not_lt.mp h, fun _ => rfl⟩

theorem checkQos_eq_ok_iff {level : UInt8} : checkQos level = .ok () ↔ level ≤ 2 := by
  unfold checkQos
  split
  case isTrue h => exact ⟨fun _ => h, fun _ => rfl⟩
  case isFalse h => exact ⟨nofun, fun hle => absurd hle h⟩

theorem checkId_eq_ok_iff {id : UInt16} : checkId id = .ok () ↔ id ≠ 0 := by
  unfold checkId
  split
  case isTrue h => exact ⟨nofun, fun hne => absurd h hne⟩
  case isFalse h => exact ⟨fun _ => h, fun _ => rfl⟩

theorem qos_cases {level : UInt8} (h : level ≤ 2) : level = 0 ∨ level = 1 ∨ level = 2 := by
  have h : level.toNat ≤ 2 := UInt8.le_iff_toNat_le.mp h
  simp only [← UInt8.toNat_inj]
  simp only [UInt8.reduceToNat]
  omega

/-! ## PUBLISH -/

theorem head_bits : ∀ level ∈ [(0 : UInt8), 1, 2], ∀ dup retain : Bool,
    let head := (0x30 : UInt8) ||| flag dup 0x08 ||| (level <<< 1) ||| flag retain 0x01
    PacketKind.ofCode? (head >>> 4).toNat = some .publish ∧ (head >>> 1) &&& 3 = level ∧
      decide (head &&& 1 ≠ 0) = retain ∧ decide (head &&& 8 ≠ 0) = dup := by
  decide +kernel

theorem head_reads {p : Publish} (h : p.qos ≤ 2) :
    Reads (kindOf p.head) [] .publish ∧ (p.head >>> 1) &&& 3 = p.qos ∧
      decide (p.head &&& 1 ≠ 0) = p.retain ∧ decide (p.head &&& 8 ≠ 0) = p.dup := by
  have hmem : p.qos ∈ [(0 : UInt8), 1, 2] := by
    rcases qos_cases h with h | h | h <;> rw [h] <;> decide
  obtain ⟨hkind, hlevel, hbits⟩ := head_bits p.qos hmem p.dup p.retain
  have hlevel : (p.head >>> 1) &&& 3 = p.qos := hlevel
  have hne : p.qos ≠ 3 := by
    rintro h3
    rw [h3] at h
    revert h
    decide
  refine ⟨?_, hlevel, hbits⟩
  rw [kindOf, show PacketKind.ofCode? (p.head >>> 4).toNat = some .publish from hkind]
  simp only [flagsFit, if_true, true_and]
  rw [if_neg fun h3 => hne (hlevel.symm.trans h3)]
  exact Reads.pure _

/-- The packet id on the wire is there just if the service level asks for one. -/
theorem wireId_eq_ok_iff {p : Publish} {id : Option UInt16} : p.wireId = .ok id ↔
    p.qos = 0 ∧ id = none ∨
      p.qos ≠ 0 ∧ p.qos ≤ 2 ∧ id = p.packetId ∧ ∃ n, p.packetId = some n ∧ n ≠ 0 := by
  unfold Publish.wireId
  by_cases h0 : p.qos = 0
  · cases p.packetId <;> simp [h0, eq_comm]
  · cases hn : p.packetId with
    | none => simp [h0]
    | some n =>
      simp only [h0, if_false, false_and, false_or]
      split
      case isFalse h2 => simp [h2]
      case isTrue h2 =>
        have hmap : (checkId n).map (fun _ => some n) = .ok id ↔
            checkId n = .ok () ∧ id = some n := by
          cases checkId n <;> simp [Except.map, eq_comm]
        rw [hmap, checkId_eq_ok_iff]
        simp [h0, h2, and_comm]

theorem le_two_of_wireId {p : Publish} {id : Option UInt16} (h : p.wireId = .ok id) :
    p.qos ≤ 2 := by
  rcases wireId_eq_ok_iff.mp h with ⟨h0, -⟩ | ⟨-, h2, -⟩
  · rw [h0]
    decide
  · exact h2

theorem publishFields_reads {p : Publish} {id : Option UInt16} (hid : p.wireId = .ok id)
    (htopic : (Utf8.encode p.topic).length ≤ 65535) :
    Reads (publishFields p.head)
      (Field.write (Utf8.encode p.topic) ++ (id.map Octets.ofUInt16).getD [])
      (p.topic, p.qos, id) := by
  obtain ⟨-, hlevel, -⟩ := head_reads (le_two_of_wireId hid)
  refine (text_reads htopic).bind ?_
  simp only [hlevel]
  rw [← List.append_nil ((id.map Octets.ofUInt16).getD [])]
  rcases wireId_eq_ok_iff.mp hid with ⟨h0, rfl⟩ | ⟨h0, -, rfl, n, hn, hne⟩
  · rw [if_pos h0]
    exact (Reads.pure none).bind (Reads.pure _)
  · rw [if_neg h0, hn]
    exact ((packetId_reads hne).map some).bind (Reads.pure _)

theorem readPublish_write {p : Publish} {id : Option UInt16} (hid : p.wireId = .ok id)
    (htopic : (Utf8.encode p.topic).length ≤ 65535) :
    readPublish p.head (p.write id).length (p.write id) = .ok ({ p with packetId := id }, []) := by
  obtain ⟨-, -, hretain, hdup⟩ := head_reads (le_two_of_wireId hid)
  rw [readPublish, Publish.write, publishFields_reads hid htopic p.payload]
  generalize Field.write (Utf8.encode p.topic) ++ (id.map Octets.ofUInt16).getD [] = front
  have hused : (front ++ p.payload).length - p.payload.length = front.length := by
    rw [List.length_append, Nat.add_sub_cancel]
  have hleft : (front ++ p.payload).length - front.length = p.payload.length := by
    rw [List.length_append, Nat.add_sub_cancel_left]
  simp only [bind, Except.bind, hused, hleft, hretain, hdup, List.take_length, List.drop_length]
  rw [if_neg (by rw [List.length_append]; omega)]

theorem length_publish {p : Publish} {id : Option UInt16} (h : p.wireId = .ok id) :
    p.size = (p.write id).length := by
  rw [Publish.size, Publish.write, List.length_append, List.length_append, Field.length_write]
  rcases wireId_eq_ok_iff.mp h with ⟨h0, rfl⟩ | ⟨h0, -, rfl, n, hn, -⟩
  · rw [if_pos h0]
    rfl
  · rw [if_neg h0, hn]
    rfl

theorem encode_publish_iff {p : Publish} : encode (.publish p) = .ok octets ↔
    ∃ id, p.wireId = .ok id ∧ (Utf8.encode p.topic).length ≤ 65535 ∧
      Framed p.head (p.write id) octets := by
  rw [encode, bind_eq_ok_iff]
  refine exists_congr fun id => and_congr_right fun hid => ?_
  rw [check_bind_eq_ok_iff, check_eq_ok_iff, fill_eq_ok_iff (length_publish hid)]

/-- The PUBLISH that comes back: at service level 0 it has no packet id. -/
theorem decode_publish {p : Publish} (h : encode (.publish p) = .ok octets) :
    ∃ id, p.wireId = .ok id ∧ Framed p.head (p.write id) octets ∧
      decode octets = .ok (.publish { p with packetId := id }) := by
  obtain ⟨id, hid, htopic, hframe⟩ := encode_publish_iff.mp h
  refine ⟨id, hid, hframe, decode_frame hframe (head_reads (le_two_of_wireId hid)).1 fun data => ?_⟩
  show Except.bind (readPublish p.head (p.write id).length (p.write id)) _ = _
  rw [readPublish_write hid htopic]
  rfl

/-! ## SUBSCRIBE and UNSUBSCRIBE -/

theorem subscription_check_iff {s : Subscription} :
    s.check = .ok () ↔ (Utf8.encode s.filter).length ≤ 65535 ∧ s.qos ≤ 2 := by
  rw [Subscription.check, check_bind_eq_ok_iff, check_eq_ok_iff, checkQos_eq_ok_iff]

theorem subscription_reads {s : Subscription} (hfilter : (Utf8.encode s.filter).length ≤ 65535)
    (hqos : s.qos ≤ 2) : Reads subscription s.write s := by
  refine (text_reads hfilter).bind ?_
  rw [← List.append_nil [s.qos]]
  refine (octet_reads s.qos).bind ?_
  rw [← List.append_nil []]
  exact (qos_reads hqos).bind (Reads.pure _)

/-- Items that fill the frame up to its end are read back. -/
theorem untilEnd_reads {α : Type} {item : PacketReader α} {write : α → Octets} {items : List α}
    (n : Nat) (h : ∀ a ∈ items, Reads item (write a) a ∧ write a ≠ []) :
    untilEnd n n item (items.flatMap write) = .ok (items, []) := by
  rw [untilEnd, Nat.sub_self, ← List.append_nil (items.flatMap write)]
  exact untilLeft_reads items [] h

theorem readSubscribe_write {s : Subscribe} (hid : s.packetId ≠ 0)
    (h : ∀ a ∈ s.subscriptions, (Utf8.encode a.filter).length ≤ 65535 ∧ a.qos ≤ 2) :
    readSubscribe s.write.length s.write = .ok (s, []) := by
  have hitems (a : Subscription) (ha : a ∈ s.subscriptions) :
      Reads subscription a.write a ∧ a.write ≠ [] :=
    ⟨subscription_reads (h a ha).1 (h a ha).2, by simp [Subscription.write]⟩
  show Except.bind (packetId (Octets.ofUInt16 s.packetId ++ _)) _ = _
  rw [packetId_reads hid]
  show Except.bind (untilEnd s.write.length s.write.length subscription _) _ = _
  rw [untilEnd_reads _ hitems]
  rfl

theorem readUnsubscribe_write {u : Unsubscribe} (hid : u.packetId ≠ 0)
    (h : ∀ a ∈ u.filters, (Utf8.encode a).length ≤ 65535) :
    readUnsubscribe u.write.length u.write = .ok (u, []) := by
  have hitems (a : String) (ha : a ∈ u.filters) :
      Reads text ((Field.write ∘ Utf8.encode) a) a ∧ (Field.write ∘ Utf8.encode) a ≠ [] :=
    ⟨text_reads (h a ha), by simp [Field.write, Octets.ofUInt16]⟩
  show Except.bind (packetId (Octets.ofUInt16 u.packetId ++ _)) _ = _
  rw [packetId_reads hid]
  show Except.bind (untilEnd u.write.length u.write.length text _) _ = _
  rw [untilEnd_reads _ hitems]
  rfl

/-- The room reckoned for the items of a list behind a packet id is what they take. -/
theorem length_items {α : Type} {size : α → Nat} {write : α → Octets}
    (h : ∀ a, (write a).length = size a) (id : UInt16) (as : List α) :
    as.foldr (fun a rest => size a + rest) 2 = (Octets.ofUInt16 id ++ as.flatMap write).length := by
  induction as with
  | nil => rfl
  | cons a as ih =>
    rw [List.foldr_cons, ih, List.flatMap_cons, List.length_append, List.length_append,
      List.length_append, h]
    omega

theorem length_subscribe (s : Subscribe) : s.size = s.write.length :=
  length_items (fun t => by rw [Subscription.write, List.length_append, Field.length_write]; rfl) ..

theorem length_unsubscribe (u : Unsubscribe) : u.size = u.write.length :=
  length_items (fun filter => Field.length_write (Utf8.encode filter)) ..

theorem encode_subscribe_iff {s : Subscribe} : encode (.subscribe s) = .ok octets ↔
    (∀ a ∈ s.subscriptions, (Utf8.encode a.filter).length ≤ 65535 ∧ a.qos ≤ 2) ∧ s.packetId ≠ 0 ∧
      Framed 0x82 s.write octets := by
  rw [encode, check_bind_eq_ok_iff, check_bind_eq_ok_iff, forM_eq_ok_iff, checkId_eq_ok_iff,
    fill_eq_ok_iff (length_subscribe s)]
  simp only [subscription_check_iff]

theorem encode_unsubscribe_iff {u : Unsubscribe} : encode (.unsubscribe u) = .ok octets ↔
    (∀ a ∈ u.filters, (Utf8.encode a).length ≤ 65535) ∧ u.packetId ≠ 0 ∧
      Framed 0xA2 u.write octets := by
  rw [encode, check_bind_eq_ok_iff, check_bind_eq_ok_iff, forM_eq_ok_iff, checkId_eq_ok_iff,
    fill_eq_ok_iff (length_unsubscribe u)]
  simp only [check_eq_ok_iff]

theorem decode_subscribe {s : Subscribe} (h : encode (.subscribe s) = .ok octets) :
    Framed 0x82 s.write octets ∧ decode octets = .ok (.subscribe s) := by
  obtain ⟨hitems, hid, hframe⟩ := encode_subscribe_iff.mp h
  have hkind : Reads (kindOf 0x82) [] .subscribe := fun _ => rfl
  refine ⟨hframe, decode_frame hframe hkind fun data => ?_⟩
  show Except.bind (readSubscribe _ _) _ = _
  rw [readSubscribe_write hid hitems]
  rfl

theorem decode_unsubscribe {u : Unsubscribe} (h : encode (.unsubscribe u) = .ok octets) :
    Framed 0xA2 u.write octets ∧ decode octets = .ok (.unsubscribe u) := by
  obtain ⟨hitems, hid, hframe⟩ := encode_unsubscribe_iff.mp h
  have hkind : Reads (kindOf 0xA2) [] .unsubscribe := fun _ => rfl
  refine ⟨hframe, decode_frame hframe hkind fun data => ?_⟩
  show Except.bind (readUnsubscribe _ _) _ = _
  rw [readUnsubscribe_write hid hitems]
  rfl

end Packet
end MqttGateway
