import MqttGateway.Proofs.Packet.Connecting
/-!
# Wire forms

Main statement: a packet that is taken apart has a wire form exactly if its fields, its service
levels, its packet id and its length fit, and the wire form is read back as the packet. All that the
wire does not carry is a level of the protocol other than the two there are, and the packet id of a
PUBLISH at service level 0.
-/
namespace MqttGateway.Packet

def Fits : Packet → Prop
  | .connect c => c.Fits
  | .publish p => (Utf8.encode p.topic).length ≤ 65535 ∧
      (p.qos = 0 ∨ (p.qos = 1 ∨ p.qos = 2) ∧ ∃ id, p.packetId = some id ∧ id ≠ 0)
  | .subscribe s => s.packetId ≠ 0 ∧
      ∀ a ∈ s.subscriptions, (Utf8.encode a.filter).length ≤ 65535 ∧ a.qos ≤ 2
  | .unsubscribe u => u.packetId ≠ 0 ∧ ∀ a ∈ u.filters, (Utf8.encode a).length ≤ 65535
  | _ => True

/-- The number of octets that follow the length in the frame of a packet. -/
def remaining : Packet → Nat
  | .connect c => c.size + if c.level = 3 then 2 else 0
  | .publish p => p.size
  | .subscribe s => s.size
  | .unsubscribe u => u.size
  | _ => 0

def onWire : Packet → Packet
  | .connect c => .connect { c with level := Connect.wireLevel c.level }
  | .publish p => .publish { p with packetId := if p.qos = 0 then none else p.packetId }
  | packet => packet

variable {octets : Octets}

/-- A PUBLISH has an id for the wire if it has one where its service level asks for one. -/
theorem wireId_of_fits {p : Publish}
    (h : p.qos = 0 ∨ (p.qos = 1 ∨ p.qos = 2) ∧ ∃ id, p.packetId = some id ∧ id ≠ 0) :
    p.wireId = .ok (if p.qos = 0 then none else p.packetId) := by
  rw [wireId_eq_ok_iff]
  rcases h with h0 | ⟨hqos, hid⟩
  · exact .inl ⟨h0, if_pos h0⟩
  · have hne : p.qos ≠ 0 := by
      rcases hqos with h | h <;> rw [h] <;> decide
    have hle : p.qos ≤ 2 := by
      rcases hqos with h | h <;> rw [h] <;> decide
    exact .inr ⟨hne, hle, if_neg hne, hid⟩

theorem fits_of_wireId {p : Publish} {id : Option UInt16} (h : p.wireId = .ok id) :
    (p.qos = 0 ∨ (p.qos = 1 ∨ p.qos = 2) ∧ ∃ id, p.packetId = some id ∧ id ≠ 0) ∧
      id = if p.qos = 0 then none else p.packetId := by
  rcases wireId_eq_ok_iff.mp h with ⟨h0, rfl⟩ | ⟨hne, hle, rfl, hid⟩
  · exact ⟨.inl h0, (if_pos h0).symm⟩
  · exact ⟨.inr ⟨(qos_cases hle).resolve_left hne, hid⟩, (if_neg hne).symm⟩

structure WrittenAs (p : Packet) (head : UInt8) (body : Octets) : Prop where
  length : p.Fits → body.length = p.remaining
  encodes : ∀ octets, p.encode = .ok octets ↔ p.Fits ∧ Framed head body octets
  decodes : ∀ octets, p.encode = .ok octets → decode octets = .ok p.onWire

theorem publish_writtenAs (p : Publish) : (Packet.publish p).WrittenAs p.head
    (p.write (if p.qos = 0 then none else p.packetId)) := by
  refine ⟨fun h => ?_, fun octets => ?_, fun octets h => ?_⟩
  · exact (length_publish (wireId_of_fits h.2)).symm
  · rw [encode_publish_iff]
    constructor
    · rintro ⟨id, hid, htopic, hframe⟩
      obtain ⟨hfits, rfl⟩ := fits_of_wireId hid
      exact ⟨⟨htopic, hfits⟩, hframe⟩
    · rintro ⟨⟨htopic, hfits⟩, hframe⟩
      exact ⟨_, wireId_of_fits hfits, htopic, hframe⟩
  · obtain ⟨id, hid, -, hdecode⟩ := decode_publish h
    rw [hdecode, (fits_of_wireId hid).2]
    rfl

/-- A packet without fields is a head alone. -/
theorem bare_writtenAs {p : Packet} {head : UInt8} {kind : PacketKind}
    (hencode : p.encode = fill 0 (frame head [])) (hfits : p.Fits) (hremaining : p.remaining = 0)
    (hkind : PacketReader.Reads (kindOf head) [] kind)
    (hbody : ∀ data, readBody data kind head 0 [] = .ok (p.onWire, [])) : p.WrittenAs head [] := by
  have hframe (octets : Octets) : p.encode = .ok octets ↔ Framed head [] octets := by
    rw [hencode]
    exact fill_eq_ok_iff rfl
  refine ⟨fun _ => hremaining.symm, fun octets => ?_, fun octets h => ?_⟩
  · rw [hframe]
    exact ⟨fun h => ⟨hfits, h⟩, fun h => h.2⟩
  · exact decode_frame ((hframe octets).mp h) hkind hbody

theorem exists_writtenAs (p : Packet) (hp : ∀ kind octets, p ≠ .other kind octets) :
    ∃ head body, p.WrittenAs head body := by
  cases p with
  | connect c =>
    exact ⟨_, _, fun _ => c.length_body, fun _ => encode_connect_iff,
      fun _ h => (decode_connect h).2⟩
  | publish p => exact ⟨_, _, publish_writtenAs p⟩
  | subscribe s =>
    refine ⟨0x82, s.write, fun _ => (length_subscribe s).symm, fun octets => ?_,
      fun _ h => (decode_subscribe h).2⟩
    rw [encode_subscribe_iff, and_left_comm, ← and_assoc]
    rfl
  | unsubscribe u =>
    refine ⟨0xA2, u.write, fun _ => (length_unsubscribe u).symm, fun octets => ?_,
      fun _ h => (decode_unsubscribe h).2⟩
    rw [encode_unsubscribe_iff, and_left_comm, ← and_assoc]
    rfl
  | pingReq =>
    have hkind : PacketReader.Reads (kindOf 0xC0) [] .pingreq := fun _ => rfl
    exact ⟨_, _, bare_writtenAs rfl trivial rfl hkind fun _ => rfl⟩
  | pingResp =>
    have hkind : PacketReader.Reads (kindOf 0xD0) [] .pingresp := fun _ => rfl
    exact ⟨_, _, bare_writtenAs rfl trivial rfl hkind fun _ => rfl⟩
  | disconnect =>
    have hkind : PacketReader.Reads (kindOf 0xE0) [] .disconnect := fun _ => rfl
    exact ⟨_, _, bare_writtenAs rfl trivial rfl hkind fun _ => rfl⟩
  | other kind octets => exact absurd rfl (hp kind octets)

/-- A packet that is taken apart has a wire form exactly if it fits. The wire form is one frame with
as many octets behind its length as the packet takes, and the packet is read back from it. -/
theorem wire_form_reads_back (p : Packet) (hp : ∀ kind octets, p ≠ .other kind octets) :
    ((∃ octets, p.encode = .ok octets) ↔ p.Fits ∧ p.remaining ≤ RemainingLength.limit) ∧
    ∀ octets, p.encode = .ok octets →
      (∃ head body, octets = head :: RemainingLength.encode p.remaining ++ body ∧
        body.length = p.remaining) ∧
      decode octets = .ok p.onWire := by
  obtain ⟨head, body, hwritten⟩ := exists_writtenAs p hp
  refine ⟨⟨?_, ?_⟩, fun octets h => ⟨?_, hwritten.decodes octets h⟩⟩
  · rintro ⟨octets, h⟩
    obtain ⟨hfits, hframe⟩ := (hwritten.encodes octets).mp h
    exact ⟨hfits, hwritten.length hfits ▸ hframe.fits⟩
  · rintro ⟨hfits, hlimit⟩
    have hframe : Framed head body (frame head body) := ⟨rfl, hwritten.length hfits ▸ hlimit⟩
    exact ⟨_, (hwritten.encodes _).mpr ⟨hfits, hframe⟩⟩
  · obtain ⟨hfits, rfl, -⟩ := (hwritten.encodes octets).mp h
    rw [← hwritten.length hfits]
    exact ⟨head, body, rfl, rfl⟩

/-- A CONNECT for level 3 whose length takes one octet before it is relabeled and two after. -/
def widening : Connect :=
  ⟨3, String.ofList (List.replicate 109 'c'), true, 60, none, none, some ⟨"t", [], 2, true⟩⟩

theorem widening_fits : widening.Fits := by
  refine ⟨?_, nofun, nofun, ?_, ?_, ?_⟩
  · decide +kernel
  all_goals
    rintro _ ⟨⟩
    decide +kernel

theorem widening_reads_back : widening.size = 126 ∧ (Packet.connect widening).remaining = 128 ∧
    ∃ octets, (Packet.connect widening).encode = .ok octets ∧
      decode octets = .ok (.connect widening) := by
  have hsize : widening.size = 126 := by decide +kernel
  have hremaining : (Packet.connect widening).remaining = 128 := by
    rw [remaining, hsize]
    rfl
  obtain ⟨hiff, hback⟩ := wire_form_reads_back (.connect widening) fun _ _ => nofun
  obtain ⟨octets, h⟩ := hiff.mpr ⟨widening_fits, by rw [hremaining]; decide⟩
  exact ⟨hsize, hremaining, octets, h, (hback octets h).2⟩

end MqttGateway.Packet
