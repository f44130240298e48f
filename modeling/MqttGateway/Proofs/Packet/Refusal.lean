import MqttGateway.Proofs.Packet.Length
/-!
# Why a frame is not decoded

Main statement: once the whole of a frame is there, it is decoded, refused as malformed, or it stops
the reader at an octet beyond its end. It is never refused for a want of data.
-/
namespace MqttGateway

/-- The reader was stopped by the content of the data, and not by a want of data. -/
def Halt.OfContent (halt : Halt) : Prop :=
  halt = .overrun ∨ ∃ fault, halt = .error (.malformed fault)

namespace PacketReader

variable {α β : Type} {item : PacketReader α}

def Blames (item : PacketReader α) : Prop :=
  ∀ bs halt, item bs = .error halt → halt.OfContent

theorem Blames.pure (a : α) : Blames (pure a : PacketReader α) :=
  fun _ _ => nofun

theorem Blames.bind {next : α → PacketReader β} (h : Blames item) (hnext : ∀ a, Blames (next a)) :
    Blames (item >>= next) := by
  intro bs halt
  show (item bs).bind (fun x => next x.1 x.2) = .error halt → _
  cases hitem : item bs with
  | error halt' =>
    rintro ⟨⟩
    exact h bs _ hitem
  | ok x => exact hnext x.1 x.2 halt

theorem Blames.map (f : α → β) (h : Blames item) : Blames (f <$> item) :=
  h.bind fun a => .pure (f a)

theorem refuse_blames (fault : DecodeFault) : Blames (refuse fault : PacketReader α) := by
  rintro bs _ ⟨⟩
  exact .inr ⟨fault, rfl⟩

theorem octet_blames : Blames octet := by
  intro bs halt h
  cases bs with
  | nil =>
    cases h
    exact .inl rfl
  | cons b bs => cases h

theorem field_blames : Blames field := by
  intro bs halt h
  unfold field at h
  split at h
  case h_1 =>
    dsimp only at h
    split at h
    · cases h
      exact .inr ⟨_, rfl⟩
    · cases h
  case h_2 =>
    cases h
    exact .inr ⟨_, rfl⟩

theorem text_blames : Blames text := by
  refine field_blames.bind fun octets => ?_
  split
  · exact .pure _
  · exact refuse_blames _

theorem uint16_blames : Blames uint16 :=
  octet_blames.bind fun _ => octet_blames.bind fun _ => .pure _

theorem packetId_blames : Blames packetId := by
  refine uint16_blames.bind fun id => ?_
  split
  · exact refuse_blames _
  · exact .pure _

theorem qos_blames (level : UInt8) : Blames (qos level) := by
  unfold qos
  split
  · exact .pure _
  · exact refuse_blames _

theorem untilLeft_blames (stop : Nat) (h : Blames item) : Blames (untilLeft item stop) := by
  intro bs
  induction hn : bs.length using Nat.strongRecOn generalizing bs with
  | ind n ih =>
    intro halt
    rw [untilLeft]
    split
    case isTrue =>
      intro h
      cases h
    case isFalse =>
      split
      case h_1 halt' hitem =>
        rintro ⟨⟩
        exact h bs _ hitem
      case h_2 a rest hitem =>
        split
        case isFalse =>
          intro h
          cases h
        case isTrue hlt =>
          have hrest := ih rest.length (hn ▸ hlt) rest rfl
          cases htail : untilLeft item stop rest with
          | ok x =>
            intro h
            cases h
          | error halt' =>
            rintro ⟨⟩
            exact hrest _ htail

end PacketReader

namespace Packet

open PacketReader

theorem kindOf_blames (head : UInt8) : Blames (kindOf head) := by
  unfold kindOf
  split
  case h_2 => exact refuse_blames _
  case h_1 =>
    split
    case isFalse => exact refuse_blames _
    case isTrue =>
      split
      · exact refuse_blames _
      · exact .pure _

theorem whenSet_blames {α : Type} {item : PacketReader α} (flags mask : UInt8) (h : Blames item) :
    Blames (whenSet flags mask item) := by
  unfold whenSet
  split
  · exact h.map some
  · exact .pure none

theorem readConnect_blames : Blames readConnect := by
  have hprotocol (name : String) (level : UInt8) : Blames (protocol name level) := by
    unfold protocol
    split
    · exact .pure _
    · exact refuse_blames _
  have hwill (flags : UInt8) : Blames (will flags) :=
    text_blames.bind fun _ => field_blames.bind fun _ => (qos_blames _).bind fun _ => .pure _
  refine text_blames.bind fun name => octet_blames.bind fun level => ?_
  refine (hprotocol name level).bind fun _ => octet_blames.bind fun flags => ?_
  refine uint16_blames.bind fun _ => text_blames.bind fun _ => ?_
  refine (whenSet_blames _ _ (hwill flags)).bind fun _ => ?_
  refine (whenSet_blames _ _ text_blames).bind fun _ => ?_
  exact (whenSet_blames _ _ field_blames).bind fun _ => .pure _

theorem readPublish_blames (head : UInt8) (length : Nat) : Blames (readPublish head length) := by
  have hfields : Blames (publishFields head) := by
    refine text_blames.bind fun _ => ?_
    dsimp only
    split
    · exact (Blames.pure none).bind fun _ => .pure _
    · exact (packetId_blames.map some).bind fun _ => .pure _
  intro bs halt
  unfold readPublish
  cases h : publishFields head bs with
  | error halt' =>
    rintro ⟨⟩
    exact hfields bs _ h
  | ok x =>
    simp only [bind, Except.bind]
    split
    case isTrue =>
      rintro ⟨⟩
      exact .inl rfl
    case isFalse => nofun

theorem readBody_blames (frame : Octets) (kind : PacketKind) (head : UInt8) (length : Nat) :
    Blames (readBody frame kind head length) := by
  have hgrant : Blames grant := by
    refine octet_blames.bind fun code => ?_
    split
    · exact .pure _
    · exact (qos_blames code).map _
  have hid : Blames (discard packetId) := packetId_blames.map _
  cases kind with
  | connect => exact readConnect_blames.map _
  | publish => exact (readPublish_blames head length).map _
  | subscribe =>
    refine Blames.map _ fun bs => ?_
    have hitem : Blames subscription :=
      text_blames.bind fun _ => octet_blames.bind fun _ => (qos_blames _).bind fun _ => .pure _
    exact packetId_blames.bind (fun _ => (untilLeft_blames _ hitem).bind fun _ => .pure _) bs
  | unsubscribe =>
    refine Blames.map _ fun bs => ?_
    exact packetId_blames.bind (fun _ => (untilLeft_blames _ text_blames).bind fun _ => .pure _) bs
  | pingreq => exact .pure _
  | pingresp => exact .pure _
  | disconnect => exact .pure _
  | connack =>
    refine Blames.bind ?_ fun _ => .pure _
    refine (octet_blames.map _).bind fun _ => octet_blames.bind fun code => ?_
    split
    · exact .pure _
    · exact refuse_blames _
  | suback =>
    refine Blames.bind (fun bs => ?_) fun _ => .pure _
    exact hid.bind (fun _ => (untilLeft_blames _ hgrant).map _) bs
  | _ => exact hid.bind fun _ => .pure _

/-- Once the whole of a frame is there it is not refused for a want of data. -/
theorem decode_blames {head : UInt8} {after body : Octets} {length : Nat} {halt : Halt}
    (hread : RemainingLength.read after = .done length body) (hlength : length ≤ body.length)
    (h : decode (head :: after) = .error halt) : halt.OfContent := by
  rw [decode_cons, hread] at h
  simp only [Nat.not_lt.mpr hlength, if_false] at h
  have hblames : Blames (do readBody (head :: after) (← kindOf head) head length) :=
    (kindOf_blames head).bind fun kind => readBody_blames _ kind head length
  revert h
  cases hrun : (do readBody (head :: after) (← kindOf head) head length : PacketReader Packet).run
      body with
  | ok x => nofun
  | error halt' =>
    rintro ⟨⟩
    exact hblames body _ hrun

end Packet
end MqttGateway
