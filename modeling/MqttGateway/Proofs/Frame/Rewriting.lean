import MqttGateway.Proofs.Frame.Editing
import MqttGateway.Proofs.Packet.Decoded
/-!
# Writing anew what was taken

Main statement: a packet that was taken can always be written anew, in no more octets than it came
in, and is read back from them as it was. So a frame whose packet somebody took up and left as it is
goes out in a shape that does not change any more, and means what it did.
-/
namespace MqttGateway

namespace Packet

open RemainingLength

variable {p : Packet} {octets : Octets}

/-- What was decoded from a whole frame is written in no more octets than the frame has. -/
theorem exists_encode_of_decode (hframe : IsFrame octets) (hdecode : decode octets = .ok p) :
    ∃ out, p.encode = .ok out ∧ out.length ≤ octets.length ∧ decode out = .ok p ∧ IsFrame out := by
  by_cases hp : ∃ kind raw, p = .other kind raw
  · obtain ⟨kind, raw, rfl⟩ := hp
    obtain rfl := eq_of_decode_other hdecode
    exact ⟨raw, rfl, Nat.le_refl _, hdecode, hframe⟩
  · have hp : ∀ kind raw, p ≠ .other kind raw := fun kind raw h => hp ⟨kind, raw, h⟩
    obtain ⟨head, lengths, body, rfl, hspells⟩ := hframe
    obtain ⟨hfits, hroom, hsame⟩ := renewable_of_decode (hspells.read body) hp hdecode
    obtain ⟨head', body', hwritten⟩ := exists_writtenAs p hp
    have hlength := hwritten.length hfits
    have hframed : Framed head' body' (frame head' body') :=
      ⟨rfl, hlength ▸ Nat.le_trans hroom hspells.le_limit⟩
    have hencode := (hwritten.encodes _).mpr ⟨hfits, hframed⟩
    have hdecoded := hwritten.decodes _ hencode
    rw [hsame] at hdecoded
    refine ⟨frame head' body', hencode, ?_, hdecoded, hframed.isFrame⟩
    have hprefix := hspells.length_encode_le hroom
    simp only [frame, List.length_append, List.length_cons, hlength]
    omega

end Packet

/-- The wire form tells all of a packet that was taken. -/
theorem Frame.Intact.onWire {f : Frame} (hf : f.Intact)
    (hraw : ∀ kind raw, f.packet ≠ .other kind raw) : f.packet.onWire = f.packet := by
  obtain ⟨_, -, htake⟩ := hf
  obtain ⟨_, ⟨head, lengths, body, rfl, hspells⟩, -, -, hdecode⟩ :=
    Inlet.take_eq_frame_iff.mp (htake [] .open)
  exact (Packet.renewable_of_decode (hspells.read body) hraw hdecode).onWire

/-- A frame that was taken can be written anew, in no more octets than it came in. Whoever reads
these takes the same packet, and writes it as the same octets. They are what goes out for the frame
once it has been edited without a change to its packet. -/
theorem Frame.rewriting_normalizes {inlet : Inlet} {f : Frame} {rest : Octets}
    (htake : inlet.take = .frame f rest) :
    ∃ octets out, inlet.arrived = octets ++ rest ∧ f.received = some octets ∧
      f.packet.encode = .ok out ∧ out.length ≤ octets.length ∧
      Packet.decode out = .ok f.packet ∧
      (∀ packet, Packet.decode out = .ok packet → packet.encode = .ok out) ∧
      (∀ more ending, Inlet.take ⟨out ++ more, ending⟩ = .frame ⟨f.packet, some out⟩ more) ∧
      ∀ changes, changes ≠ [] → (f.editAll changes).packet = f.packet →
        (f.editAll changes).wire = .ok out := by
  obtain ⟨octets, hframe, harrived, hreceived, hdecode⟩ := Inlet.take_eq_frame_iff.mp htake
  obtain ⟨out, hencode, hlength, hdecoded, hout⟩ := Packet.exists_encode_of_decode hframe hdecode
  refine ⟨octets, out, harrived, hreceived, hencode, hlength, hdecoded, ?_, ?_, ?_⟩
  · intro packet hpacket
    cases hdecoded.symm.trans hpacket
    exact hencode
  · intro more ending
    rw [Inlet.take_isFrame hout, hdecoded]
  · intro changes hne hsame
    rw [wire_eq_ok_iff (editAll_received f hne), hsame]
    exact hencode

/-- A CONNECT for level 3 with a length of one octet too many, flags of a will that it does not have,
and two octets behind its last field. -/
def baroque : Octets :=
  [0x10, 0x91, 0x00, 0x00, 0x06, 0x4D, 0x51, 0x49, 0x73, 0x64, 0x70, 0x03, 0x39, 0x00, 0x0A, 0x00,
    0x01, 0x63, 0xFF, 0xFF]

/-- All of that is gone once the packet has been taken up, and the packet is the same. -/
theorem Frame.baroque_normalized :
    ∃ f out, Inlet.take ⟨baroque, .open⟩ = .frame f [] ∧ f.wire = .ok baroque ∧
      (f.editAll [id]).wire = .ok out ∧ out.length = 17 ∧
      Inlet.take ⟨out, .open⟩ = .frame ⟨f.packet, some out⟩ [] := by
  let c : Connect := ⟨3, "c", false, 10, none, none, none⟩
  let f : Frame := ⟨.connect c, some baroque⟩
  have hframe : IsFrame baroque :=
    ⟨0x10, [0x91, 0x00], baroque.drop 3, rfl, [0x91], 0x00, rfl, by decide, by simp, by decide, rfl⟩
  have htake : Inlet.take ⟨baroque, .open⟩ = .frame f [] :=
    Inlet.take_eq_frame_iff.mpr ⟨baroque, hframe, rfl, rfl, by decide +kernel⟩
  obtain ⟨_, out, -, -, hencode, -, -, -, hretake, hedited⟩ := rewriting_normalizes htake
  have hlength : out.length = 17 := by
    obtain ⟨-, rfl, -⟩ := Packet.encode_connect_iff.mp hencode
    decide +kernel
  have hagain := hretake [] .open
  rw [List.append_nil] at hagain
  exact ⟨f, out, htake, rfl, hedited [id] (List.cons_ne_nil _ _) rfl, hlength, hagain⟩

end MqttGateway
