import MqttGateway.Proofs.Frame.Stream
import MqttGateway.Proofs.Packet.WireForm
import MqttGateway.Relay.Step
/-!
# Frames that are edited

A frame has its packet taken apart and, until somebody edits it, also as the octets it arrived in.
Main statement: the two never drift apart. Whatever was done to a frame, what goes out for it is
read as the packet that it has in the end.
-/
namespace MqttGateway

namespace PacketReader

variable {α β : Type} {P : β → Prop}

def Gives (item : PacketReader β) (P : β → Prop) : Prop :=
  ∀ bs b rest, item bs = .ok (b, rest) → P b

theorem Gives.pure {b : β} (h : P b) : Gives (pure b : PacketReader β) P := by
  rintro bs _ rest ⟨⟩
  exact h

/-- What comes last decides what is read. -/
theorem Gives.bind (item : PacketReader α) {next : α → PacketReader β}
    (h : ∀ a, Gives (next a) P) : Gives (item >>= next) P := by
  intro bs b rest hread
  obtain ⟨⟨a, mid⟩, -, hnext⟩ := bind_eq_ok_iff.mp hread
  exact h a mid b rest hnext

theorem Gives.map (item : PacketReader α) {f : α → β} (h : ∀ a, P (f a)) :
    Gives (f <$> item) P :=
  Gives.bind item fun a => .pure (h a)

end PacketReader

namespace Packet

open PacketReader

/-- A packet that is not taken apart is kept as the octets of its frame. -/
theorem readBody_gives (data : Octets) (kind : PacketKind) (head : UInt8) (length : Nat) :
    Gives (readBody data kind head length)
      fun p => ∀ kind raw, p = .other kind raw → raw = data := by
  have kept (kind : PacketKind) : Gives (pure (.other kind data) : PacketReader Packet)
      fun p => ∀ kind raw, p = .other kind raw → raw = data := by
    refine .pure fun _ _ h => ?_
    cases h
    rfl
  cases kind with
  | connect => exact .map _ fun _ _ _ => nofun
  | publish => exact .map _ fun _ _ _ => nofun
  | subscribe => exact .map _ fun _ _ _ => nofun
  | unsubscribe => exact .map _ fun _ _ _ => nofun
  | pingreq => exact .pure fun _ _ => nofun
  | pingresp => exact .pure fun _ _ => nofun
  | disconnect => exact .pure fun _ _ => nofun
  | _ => exact .bind _ fun _ => kept _

theorem eq_of_decode_other {octets raw : Octets} {kind : PacketKind}
    (h : decode octets = .ok (.other kind raw)) : raw = octets := by
  unfold decode at h
  split at h
  case h_1 head after start length hextent =>
    have hgives : Gives (do readBody (head :: after) (← kindOf head) head length)
        fun p => ∀ kind raw, p = .other kind raw → raw = head :: after :=
      .bind _ fun kind => readBody_gives _ kind head length
    obtain ⟨⟨packet, rest⟩, hread, hpacket⟩ := map_eq_ok_iff.mp h
    exact hgives _ _ _ hread kind raw hpacket
  case h_2 => cases h
  case h_3 => cases h

/-- Whoever reads the wire form of a packet takes one frame with what the wire form tells of it. -/
theorem take_encode {p : Packet} {octets : Octets} (hp : ∀ kind raw, p ≠ .other kind raw)
    (h : p.encode = .ok octets) (more : Octets) (ending : Ending) :
    Inlet.take ⟨octets ++ more, ending⟩ = .frame ⟨p.onWire, some octets⟩ more := by
  obtain ⟨head, body, hwritten⟩ := exists_writtenAs p hp
  exact take_frame ((hwritten.encodes octets).mp h).2 (hwritten.decodes octets h) more ending

end Packet

namespace Frame

/-- How a frame comes about: nobody can give it other octets than those it was taken with. -/
inductive Made : Frame → Prop
  | taken {inlet : Inlet} {f : Frame} {rest : Octets} : inlet.take = .frame f rest → Made f
  | ofPacket (packet : Packet) : Made (.ofPacket packet)
  | edit {f : Frame} (change : Packet → Packet) : Made f → Made (f.edit change)

theorem Made.of_intact {f : Frame} (h : f.Intact) : f.Made := by
  obtain ⟨octets, -, htake⟩ := h
  exact .taken (htake [] .open)

/-- A frame has no octets, or it is intact. -/
theorem made_iff {f : Frame} : f.Made ↔ f.received = none ∨ f.Intact := by
  constructor
  · intro h
    cases h with
    | taken htake => exact .inr (Inlet.take_intact htake)
    | ofPacket packet => exact .inl rfl
    | edit change => exact .inl rfl
  · rintro (hnone | hintact)
    · obtain ⟨packet, received⟩ := f
      cases hnone
      exact .ofPacket packet
    · exact .of_intact hintact

theorem wire_of_some {f : Frame} {octets : Octets} (h : f.received = some octets) :
    f.wire = .ok octets := by
  unfold wire
  rw [h]

/-- A frame without octets goes out as its packet is encoded. -/
theorem wire_of_none {f : Frame} (h : f.received = none) :
    f.wire = f.packet.encode.mapError .unencodable := by
  unfold wire
  rw [h]

theorem wire_eq_ok_iff {f : Frame} {octets : Octets} (h : f.received = none) :
    f.wire = .ok octets ↔ f.packet.encode = .ok octets := by
  rw [wire_of_none h, mapError_eq_ok_iff]

theorem Intact.decode {f : Frame} {octets : Octets} (h : f.Intact)
    (hwire : f.wire = .ok octets) :
    f.received = some octets ∧ Packet.decode octets = .ok f.packet := by
  obtain ⟨received, hreceived, htake⟩ := h
  obtain rfl := Except.ok.inj ((wire_of_some hreceived).symm.trans hwire)
  obtain ⟨_, -, hsplit, hsome, hdecode⟩ := Inlet.take_eq_frame_iff.mp (htake [] .open)
  rw [hreceived] at hsome
  cases hsome
  exact ⟨hreceived, hdecode⟩

/-- A frame that goes out as it came is read as it was. -/
theorem Intact.take_wire {f : Frame} {octets : Octets} (h : f.Intact) (hwire : f.wire = .ok octets)
    (more : Octets) (ending : Ending) :
    Inlet.take ⟨octets ++ more, ending⟩ = .frame ⟨f.packet, some octets⟩ more := by
  obtain ⟨received, hreceived, htake⟩ := h
  obtain ⟨packet, _⟩ := f
  subst hreceived
  cases hwire
  exact htake more ending

/-- What is read where the octets that go out for a frame arrive. -/
def readBack (f : Frame) : Packet :=
  if f.isUntouched then f.packet else f.packet.onWire

/-- What goes out for a frame is read as the frame's packet, as far as the wire form can tell. -/
theorem Made.take_wire {f : Frame} {octets : Octets} (h : f.Made)
    (hp : ∀ kind raw, f.packet ≠ .other kind raw) (hwire : f.wire = .ok octets) (more : Octets)
    (ending : Ending) :
    Inlet.take ⟨octets ++ more, ending⟩ = .frame ⟨f.readBack, some octets⟩ more := by
  rcases made_iff.mp h with hnone | hintact
  · rw [wire_eq_ok_iff hnone] at hwire
    rw [Packet.take_encode hp hwire]
    simp [readBack, isUntouched, hnone]
  · rw [hintact.take_wire hwire, readBack, isUntouched, (hintact.decode hwire).1]
    rfl

/-! ## Edits one after another -/

def editAll (changes : List (Packet → Packet)) (f : Frame) : Frame :=
  changes.foldl (fun f change => f.edit change) f

theorem editAll_packet (changes : List (Packet → Packet)) (f : Frame) :
    (f.editAll changes).packet = changes.foldl (fun packet change => change packet) f.packet := by
  induction changes generalizing f with
  | nil => rfl
  | cons change changes ih => exact ih (f.edit change)

theorem editAll_received {changes : List (Packet → Packet)} (f : Frame) (h : changes ≠ []) :
    (f.editAll changes).received = none := by
  induction changes generalizing f with
  | nil => exact absurd rfl h
  | cons change changes ih =>
    by_cases hlast : changes = []
    · rw [hlast]
      rfl
    · exact ih (f.edit change) hlast

theorem Made.editAll {f : Frame} (changes : List (Packet → Packet)) (h : f.Made) :
    (f.editAll changes).Made := by
  induction changes generalizing f with
  | nil => exact h
  | cons change changes ih => exact ih (h.edit change)

end Frame

open Relay in
/-- A frame that is not edited goes out as it came in, and any other as its packet is encoded. What
goes out is read as that packet, as far as the wire form can tell. -/
theorem Frame.wire_never_drifts {f : Frame} (changes : List (Packet → Packet))
    (hf : (∃ inlet rest, Inlet.take inlet = .frame f rest) ∨ ∃ packet, f = .ofPacket packet) :
    let f' := f.editAll changes
    f'.packet = changes.foldl (fun packet change => change packet) f.packet ∧
    (f'.isUntouched = true ↔
      (∃ inlet rest, Inlet.take inlet = .frame f rest) ∧ changes = []) ∧
    (f'.isUntouched = true → ∀ inlet rest, Inlet.take inlet = .frame f rest →
      ∃ octets, inlet.arrived = octets ++ rest ∧ f'.wire = .ok octets ∧
        Packet.decode octets = .ok f'.packet) ∧
    (f'.isUntouched = false → f'.wire = f'.packet.encode.mapError .unencodable) ∧
    ∀ octets, f'.wire = .ok octets →
      (∀ outlet, outlet.broken = none →
        writeFrame outlet f' = .ok (octets, ⟨outlet.written ++ octets, none⟩)) ∧
      ((∀ kind raw, f'.packet ≠ .other kind raw) → Packet.decode octets = .ok f'.readBack ∧
        ∀ more ending, Inlet.take ⟨octets ++ more, ending⟩ =
          .frame ⟨f'.readBack, some octets⟩ more) := by
  intro f'
  have hmade : f.Made := by
    rcases hf with ⟨inlet, rest, htake⟩ | ⟨packet, rfl⟩
    · exact .taken htake
    · exact .ofPacket packet
  have huntouched : f'.isUntouched = true ↔
      (∃ inlet rest, Inlet.take inlet = .frame f rest) ∧ changes = [] := by
    constructor
    · intro h
      have hnil : changes = [] := by
        by_contra hne
        rw [isUntouched, editAll_received f hne] at h
        cases h
      subst hnil
      refine ⟨hf.resolve_right ?_, rfl⟩
      rintro ⟨packet, rfl⟩
      cases h
    · rintro ⟨⟨inlet, rest, htake⟩, rfl⟩
      obtain ⟨octets, hreceived, -⟩ := Inlet.take_intact htake
      show f.received.isSome = true
      rw [hreceived]
      rfl
  refine ⟨editAll_packet changes f, huntouched, ?_, ?_, ?_⟩
  · intro h inlet rest htake
    obtain ⟨-, rfl⟩ := huntouched.mp h
    obtain ⟨octets, -, harrived, hreceived, hdecode⟩ := Inlet.take_eq_frame_iff.mp htake
    exact ⟨octets, harrived, wire_of_some hreceived, hdecode⟩
  · intro h
    exact wire_of_none (by simpa [isUntouched] using h)
  · intro octets hwire
    refine ⟨fun outlet hopen => ?_, fun hp => ?_⟩
    · simp only [writeFrame, hwire, Outlet.write, hopen, bind, Except.bind, pure, Except.pure]
    · have hread := (hmade.editAll changes).take_wire hp hwire
      obtain ⟨_, -, hsplit, hreceived, hdecode⟩ := Inlet.take_eq_frame_iff.mp (hread [] .open)
      cases hreceived
      exact ⟨hdecode, hread⟩

/-- A PUBLISH to `t` whose length is spelled with one octet more than it takes. -/
def roundabout : Octets :=
  [0x30, 0x83, 0x00, 0x00, 0x01, 0x74]

/-- An edit that changes nothing of the packet makes the frame shorter. -/
theorem Frame.shorter_after_edit :
    ∃ f, Inlet.take ⟨roundabout, .closed⟩ = .frame f [] ∧ f.wire = .ok roundabout ∧
      (f.editAll [id]).packet = f.packet ∧ (f.editAll [id]).isUntouched = false ∧
      (f.editAll [id]).wire = .ok [0x30, 0x03, 0x00, 0x01, 0x74] ∧
      Packet.decode [0x30, 0x03, 0x00, 0x01, 0x74] = .ok f.packet := by
  let f : Frame := ⟨.publish ⟨"t", [], 0, false, false, none⟩, some roundabout⟩
  have hframe : IsFrame roundabout :=
    ⟨0x30, [0x83, 0x00], [0x00, 0x01, 0x74], rfl, [0x83], 0x00, rfl, by decide, by simp,
      by decide, rfl⟩
  have htake : Inlet.take ⟨roundabout, .closed⟩ = .frame f [] :=
    Inlet.take_eq_frame_iff.mpr ⟨roundabout, hframe, rfl, rfl, by decide +kernel⟩
  have hencode : f.packet.encode = .ok [0x30, 0x03, 0x00, 0x01, 0x74] :=
    Packet.encode_publish_iff.mpr ⟨none, rfl, by decide, ⟨by decide +kernel, by decide⟩⟩
  obtain ⟨hpacket, hiff, -, hencoded, hread⟩ :=
    wire_never_drifts [id] (f := f) (.inl ⟨_, _, htake⟩)
  have huntouched : (f.editAll [id]).isUntouched = false := by
    rw [Bool.eq_false_iff]
    exact fun h => List.cons_ne_nil _ _ (hiff.mp h).2
  have hwire : (f.editAll [id]).wire = .ok [0x30, 0x03, 0x00, 0x01, 0x74] := by
    rw [hencoded huntouched, hpacket]
    exact mapError_eq_ok_iff.mpr hencode
  exact ⟨f, htake, rfl, hpacket, huntouched, hwire, ((hread _ hwire).2 fun _ _ => nofun).1⟩

end MqttGateway
