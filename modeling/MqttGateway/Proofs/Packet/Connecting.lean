import MqttGateway.Proofs.Packet.RoundTrip
/-!
# Reading back CONNECT

A CONNECT for level 3 of the protocol is written for level 4 and then relabeled. Its frame is the
one that the former name and level would have opened, so both are read back in one way.
-/
namespace MqttGateway

namespace Connect

open Packet PacketReader

def protocol (level : UInt8) : Octets :=
  if level = 3 then mqisdp else mqtt

def wireLevel (level : UInt8) : UInt8 :=
  if level = 3 then 3 else 4

/-! ## Relabeling -/

theorem dropWhile_encode {n : Nat} (hn : n ≤ RemainingLength.limit) (rest : Octets) :
    ∃ last, (RemainingLength.encode n ++ rest).dropWhile (fun b => 128 ≤ b.toNat) =
      last :: rest := by
  obtain ⟨init, last, heq, -, hinit, hlast, -⟩ := RemainingLength.encode_spells hn
  refine ⟨last, ?_⟩
  rw [heq, List.append_assoc, List.dropWhile_append_of_pos (by simpa using hinit)]
  simp [hlast]

theorem length_mqisdp_append (rest : Octets) :
    (mqisdp ++ rest).length = (mqtt ++ rest).length + 2 := by
  have hmqtt : mqtt.length = 7 := by decide +kernel
  have hmqisdp : mqisdp.length = 9 := by decide +kernel
  rw [List.length_append, List.length_append, hmqtt, hmqisdp]
  omega

/-- The name and the level are exchanged, and the frame becomes longer by two octets if it can. -/
theorem relabel_frame_eq (head : UInt8) (rest : Octets)
    (hfits : (mqtt ++ rest).length ≤ RemainingLength.limit) :
    relabel (frame head (mqtt ++ rest)) =
      if (mqtt ++ rest).length + 2 ≤ RemainingLength.limit then .ok (frame head (mqisdp ++ rest))
      else .error (.packetTooLong ((mqtt ++ rest).length + 2)) := by
  obtain ⟨last, hdrop⟩ := dropWhile_encode hfits (mqtt ++ rest)
  have hopens : mqtt.isPrefixOf (mqtt ++ rest) = true :=
    List.isPrefixOf_iff_prefix.mpr (List.prefix_append ..)
  simp only [relabel, frame, List.cons_append, hdrop, hopens, if_true, List.drop_left,
    RemainingLength.width?_eq, length_mqisdp_append]
  by_cases hlimit : (mqtt ++ rest).length + 2 ≤ RemainingLength.limit
  · simp only [if_pos hlimit]
  · simp only [if_neg hlimit]

/-- What is relabeled has its length with it. -/
theorem relabel_frame {head : UInt8} {rest : Octets}
    (hrelabeled : (mqisdp ++ rest).length ≤ RemainingLength.limit) :
    relabel (frame head (mqtt ++ rest)) = .ok (frame head (mqisdp ++ rest)) := by
  rw [length_mqisdp_append] at hrelabeled
  rw [relabel_frame_eq head rest (Nat.le_of_add_right_le hrelabeled), if_pos hrelabeled]

/-! ## Flags -/

theorem flags_bits : ∀ user pass clean will retain : Bool, ∀ level ∈ [(0 : UInt8), 1, 2],
    let flags := flag user 0x80 ||| flag pass 0x40
      ||| (if will then (0x04 : UInt8) ||| (level <<< 3) ||| flag retain 0x20 else 0)
      ||| flag clean 0x02
    decide (flags &&& 0x80 ≠ 0) = user ∧ decide (flags &&& 0x40 ≠ 0) = pass ∧
      decide (flags &&& 0x02 ≠ 0) = clean ∧ decide (flags &&& 0x04 ≠ 0) = will ∧
      (will = true → (flags >>> 3) &&& 3 = level ∧ decide (flags &&& 0x20 ≠ 0) = retain) := by
  decide +kernel

structure FlagsTell (c : Connect) : Prop where
  username : decide (c.flags &&& 0x80 ≠ 0) = c.username.isSome
  password : decide (c.flags &&& 0x40 ≠ 0) = c.password.isSome
  cleanSession : decide (c.flags &&& 0x02 ≠ 0) = c.cleanSession
  will : decide (c.flags &&& 0x04 ≠ 0) = c.will.isSome
  willFlags : ∀ w ∈ c.will, (c.flags >>> 3) &&& 3 = w.qos ∧
    decide (c.flags &&& 0x20 ≠ 0) = w.retain

theorem flagsTell {c : Connect} (h : ∀ w ∈ c.will, w.qos ≤ 2) : c.FlagsTell := by
  cases hw : c.will with
  | none =>
    have hflags : c.flags = flag c.username.isSome 0x80 ||| flag c.password.isSome 0x40
        ||| (if false then (0x04 : UInt8) ||| ((0 : UInt8) <<< 3) ||| flag false 0x20 else 0)
        ||| flag c.cleanSession 0x02 := by
      rw [flags, hw]
      rfl
    obtain ⟨huser, hpass, hclean, hwill, -⟩ :=
      flags_bits c.username.isSome c.password.isSome c.cleanSession false false 0 (by decide)
    rw [← hflags] at huser hpass hclean hwill
    exact ⟨huser, hpass, hclean, by rw [hw]; exact hwill, by rw [hw]; nofun⟩
  | some w =>
    have hmem : w.qos ∈ [(0 : UInt8), 1, 2] := by
      rcases qos_cases (h w hw) with h | h | h <;> rw [h] <;> decide
    have hflags : c.flags = flag c.username.isSome 0x80 ||| flag c.password.isSome 0x40
        ||| (if true then (0x04 : UInt8) ||| (w.qos <<< 3) ||| flag w.retain 0x20 else 0)
        ||| flag c.cleanSession 0x02 := by
      rw [flags, hw]
      rfl
    obtain ⟨huser, hpass, hclean, hwill, hbits⟩ :=
      flags_bits c.username.isSome c.password.isSome c.cleanSession true w.retain w.qos hmem
    rw [← hflags] at huser hpass hclean hwill hbits
    refine ⟨huser, hpass, hclean, by rw [hw]; exact hwill, ?_⟩
    rw [hw]
    rintro _ ⟨⟩
    exact hbits rfl

/-! ## Fields -/

structure Fits (c : Connect) : Prop where
  clientId : (Utf8.encode c.clientId).length ≤ 65535
  username : ∀ username ∈ c.username, (Utf8.encode username).length ≤ 65535
  password : ∀ password ∈ c.password, password.length ≤ 65535
  willTopic : ∀ w ∈ c.will, (Utf8.encode w.topic).length ≤ 65535
  willPayload : ∀ w ∈ c.will, w.payload.length ≤ 65535
  willQos : ∀ w ∈ c.will, w.qos ≤ 2

theorem check_iff {c : Connect} : c.check = .ok () ↔ c.Fits := by
  have hwill (w : Will) : w.check = .ok () ↔ (Utf8.encode w.topic).length ≤ 65535 ∧
      w.payload.length ≤ 65535 ∧ w.qos ≤ 2 := by
    rw [Will.check, check_bind_eq_ok_iff, check_bind_eq_ok_iff, check_eq_ok_iff, check_eq_ok_iff,
      checkQos_eq_ok_iff]
  have hfits : c.Fits ↔ (Utf8.encode c.clientId).length ≤ 65535 ∧
      (∀ username ∈ c.username, (Utf8.encode username).length ≤ 65535) ∧
      (∀ password ∈ c.password, password.length ≤ 65535) ∧
      ∀ w ∈ c.will, (Utf8.encode w.topic).length ≤ 65535 ∧ w.payload.length ≤ 65535 ∧
        w.qos ≤ 2 :=
    ⟨fun ⟨h1, h2, h3, h4, h5, h6⟩ => ⟨h1, h2, h3, fun w hw => ⟨h4 w hw, h5 w hw, h6 w hw⟩⟩,
      fun ⟨h1, h2, h3, h4⟩ => ⟨h1, h2, h3, fun w hw => (h4 w hw).1, fun w hw => (h4 w hw).2.1,
        fun w hw => (h4 w hw).2.2⟩⟩
  rw [hfits, check]
  cases c.username <;> cases c.password <;> cases c.will <;>
    simp [check_bind_eq_ok_iff, check_eq_ok_iff, hwill, pure, Except.pure]

theorem whenSet_reads {α : Type} {item : PacketReader α} {write : α → Octets} {flags mask : UInt8}
    {field : Option α} (hflag : decide (flags &&& mask ≠ 0) = field.isSome)
    (h : ∀ a ∈ field, Reads item (write a) a) :
    Reads (whenSet flags mask item) ((field.map write).getD []) field := by
  cases field with
  | none =>
    rw [whenSet, if_neg (of_decide_eq_false hflag)]
    exact Reads.pure none
  | some a =>
    rw [whenSet, if_pos (of_decide_eq_true hflag)]
    exact (h a rfl).map some

theorem will_reads {flags : UInt8} {w : Will} (htopic : (Utf8.encode w.topic).length ≤ 65535)
    (hpayload : w.payload.length ≤ 65535) (hqos : w.qos ≤ 2)
    (hflags : (flags >>> 3) &&& 3 = w.qos ∧ decide (flags &&& 0x20 ≠ 0) = w.retain) :
    Reads (Packet.will flags) w.write w := by
  refine (text_reads htopic).bind ?_
  rw [← List.append_nil (Field.write w.payload)]
  refine (field_reads hpayload).bind ?_
  rw [hflags.1, hflags.2, ← List.append_nil []]
  exact (qos_reads hqos).bind (Reads.pure w)

theorem protocol_reads {name : String} {level : UInt8}
    (h : (name = "MQTT" ∧ level = 4) ∨ (name = "MQIsdp" ∧ level = 3)) :
    Reads (Packet.protocol name level) [] level := by
  rw [Packet.protocol, if_pos h]
  exact Reads.pure level

/-- The fields of a CONNECT are read back behind either name of the protocol. -/
theorem readConnect_reads {c : Connect} (h : c.Fits) {name : String} {level : UInt8}
    (hname : (name = "MQTT" ∧ level = 4) ∨ (name = "MQIsdp" ∧ level = 3)) :
    Reads readConnect (Field.write (Utf8.encode name) ++ [level] ++ c.writeFields)
      { c with level } := by
  have htell := flagsTell h.willQos
  have hlength : (Utf8.encode name).length ≤ 65535 := by
    rcases hname with ⟨rfl, -⟩ | ⟨rfl, -⟩ <;> decide +kernel
  have hwill (w : Will) (hw : w ∈ c.will) : Reads (Packet.will c.flags) w.write w :=
    will_reads (h.willTopic w hw) (h.willPayload w hw) (h.willQos w hw) (htell.willFlags w hw)
  simp only [writeFields, List.append_assoc]
  refine (text_reads hlength).bind ((octet_reads level).bind ?_)
  rw [← List.nil_append ([c.flags] ++ _)]
  refine (protocol_reads hname).bind ((octet_reads c.flags).bind ((uint16_reads _).bind
    ((text_reads h.clientId).bind ((whenSet_reads htell.will hwill).bind
      ((whenSet_reads htell.username fun u hu => text_reads (h.username u hu)).bind ?_)))))
  rw [← List.append_nil ((c.password.map Field.write).getD [])]
  refine (whenSet_reads htell.password fun p hp => field_reads (h.password p hp)).bind ?_
  rw [htell.cleanSession]
  exact Reads.pure _

/-! ## Frames -/

theorem length_write (c : Connect) : c.size = c.write.length := by
  rw [size, write, writeFields]
  cases c.username <;> cases c.password <;> cases c.will <;>
    simp [Field.length_write, Octets.length_ofUInt16, Will.size, Will.write] <;> omega

def body (c : Connect) : Octets :=
  protocol c.level ++ c.writeFields

theorem length_body (c : Connect) : c.body.length = c.size + if c.level = 3 then 2 else 0 := by
  rw [length_write, body, protocol, write]
  split
  · exact length_mqisdp_append c.writeFields
  · rfl

/-- A CONNECT is never too long for a frame, as it has five fields at most. -/
theorem Fits.size_le {c : Connect} (h : c.Fits) : c.size ≤ 340000 := by
  have hmqtt : mqtt.length = 7 := by decide +kernel
  have hwill : (c.will.map Will.size).getD 0 ≤ 2 + 65535 + 2 + 65535 := by
    cases hw : c.will with
    | none => exact Nat.zero_le _
    | some w =>
      have htopic := h.willTopic w hw
      have hpayload := h.willPayload w hw
      simp only [Option.map_some, Option.getD_some, Will.size]
      omega
  have husername : (c.username.map fun username => 2 + (Utf8.encode username).length).getD 0 ≤
      2 + 65535 := by
    cases hu : c.username with
    | none => exact Nat.zero_le _
    | some u => exact Nat.add_le_add_left (h.username u hu) 2
  have hpassword : (c.password.map fun password => 2 + password.length).getD 0 ≤ 2 + 65535 := by
    cases hp : c.password with
    | none => exact Nat.zero_le _
    | some p => exact Nat.add_le_add_left (h.password p hp) 2
  have hclient := h.clientId
  rw [size, hmqtt]
  omega

theorem Fits.body_le {c : Connect} (h : c.Fits) : c.body.length ≤ RemainingLength.limit := by
  have hsize := h.size_le
  rw [length_body, RemainingLength.limit]
  split <;> omega

theorem Fits.write_le {c : Connect} (h : c.Fits) : c.write.length ≤ RemainingLength.limit := by
  have hsize := h.size_le
  rw [← length_write, RemainingLength.limit]
  omega

end Connect

namespace Packet

open PacketReader

variable {octets : Octets} {c : Connect}

/-- A CONNECT has a wire form if its fields can be written, be it relabeled or not. -/
theorem encode_connect_iff :
    encode (.connect c) = .ok octets ↔ c.Fits ∧ Framed 0x10 c.body octets := by
  rw [encode, check_bind_eq_ok_iff, Connect.check_iff]
  refine and_congr_right fun hfits => ?_
  rw [bind_eq_ok_iff]
  simp only [fill_eq_ok_iff (Connect.length_write c)]
  have hframed : Framed 0x10 c.write (frame 0x10 c.write) := ⟨rfl, hfits.write_le⟩
  by_cases hlevel : c.level = 3
  · have hbody : c.body = Connect.mqisdp ++ c.writeFields := by
      rw [Connect.body, Connect.protocol, if_pos hlevel]
    have hrelabel : Connect.relabel (frame 0x10 c.write) =
        .ok (frame 0x10 (Connect.mqisdp ++ c.writeFields)) :=
      Connect.relabel_frame (hbody ▸ hfits.body_le)
    simp only [hlevel, if_true, hbody]
    constructor
    · rintro ⟨_, ⟨rfl, -⟩, h⟩
      cases hrelabel.symm.trans h
      exact ⟨rfl, hbody ▸ hfits.body_le⟩
    · rintro ⟨rfl, -⟩
      exact ⟨_, hframed, hrelabel⟩
  · have hbody : c.body = c.write := by
      rw [Connect.body, Connect.protocol, if_neg hlevel, Connect.write]
    simp only [hlevel, if_false, hbody]
    constructor
    · rintro ⟨_, h, ⟨⟩⟩
      exact h
    · exact fun h => ⟨octets, h, rfl⟩

/-- The CONNECT that comes back is one for the level that is on the wire. -/
theorem decode_connect (h : encode (.connect c) = .ok octets) :
    Framed 0x10 c.body octets ∧
      decode octets = .ok (.connect { c with level := Connect.wireLevel c.level }) := by
  obtain ⟨hfits, hframe⟩ := encode_connect_iff.mp h
  have hread : Reads readConnect c.body { c with level := Connect.wireLevel c.level } := by
    unfold Connect.body Connect.protocol Connect.wireLevel
    split
    · exact Connect.readConnect_reads hfits (.inr ⟨rfl, rfl⟩)
    · exact Connect.readConnect_reads hfits (.inl ⟨rfl, rfl⟩)
  have hkind : Reads (kindOf 0x10) [] .connect := fun _ => rfl
  refine ⟨hframe, decode_frame hframe hkind fun data => ?_⟩
  rw [← List.append_nil c.body]
  exact hread.map Packet.connect []

end Packet
end MqttGateway
