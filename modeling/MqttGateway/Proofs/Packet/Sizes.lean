import MqttGateway.Proofs.Packet.WireForm
/-!
# Sizes on the wire

The length of a packet is found four times over: when the room for its frame is reckoned, when the
length is written, when it is read, and when a CONNECT is relabeled. Main statement: all of them
agree. The width of a length is the number of its octets, which are read back as it and which no
fewer can spell; the room for a frame is filled to its last octet; and relabeling makes a CONNECT
longer by two octets, on whichever side of a width this falls.
-/
namespace MqttGateway

namespace RemainingLength

/-- A length with a width: its octets are as many, they are read back whatever follows, and nothing
that is read as this length is shorter. -/
structure Exact (n : Nat) : Prop where
  width : width? n = some (encode n).length
  read : ∀ rest, read (encode n ++ rest) = .done n rest
  shortest : ∀ bs rest, RemainingLength.read bs = .done n rest →
    ∃ spelled, bs = spelled ++ rest ∧ (encode n).length ≤ spelled.length

theorem exact_of_le {n : Nat} (hn : n ≤ limit) : Exact n where
  width := by rw [width?_eq, if_pos hn]
  read := read_encode hn
  shortest bs rest h := by
    obtain ⟨spelled, hspells, hbs⟩ := read_eq_done_iff.mp h
    exact ⟨spelled, hbs, hspells.length_encode_le (Nat.le_refl n)⟩

theorem width?_eq_none {n : Nat} (hn : limit < n) : width? n = none := by
  rw [width?_eq, if_neg (Nat.not_le.mpr hn)]

end RemainingLength

namespace Packet

/-! ## The steps of writing -/

def check : Packet → Except EncodeFault Unit
  | .connect c => c.check
  | .publish p => do
    let _ ← p.wireId
    Field.topicName.check (Utf8.encode p.topic)
  | .subscribe s => do
    s.subscriptions.forM Subscription.check
    checkId s.packetId
  | .unsubscribe u => do
    u.filters.forM fun filter => Field.topicFilter.check (Utf8.encode filter)
    checkId u.packetId
  | _ => return ()

def reckoned : Packet → Nat
  | .connect c => c.size
  | .publish p => p.size
  | .subscribe s => s.size
  | .unsubscribe u => u.size
  | _ => 0

def draft : Packet → Octets
  | .connect c => frame 0x10 c.write
  | .publish p => frame p.head (p.write (if p.qos = 0 then none else p.packetId))
  | .subscribe s => frame 0x82 s.write
  | .unsubscribe u => frame 0xA2 u.write
  | .pingReq => frame 0xC0 []
  | .pingResp => frame 0xD0 []
  | .disconnect => frame 0xE0 []
  | .other _ octets => octets

def finish (p : Packet) (octets : Octets) : Except EncodeFault Octets :=
  match p with
  | .connect c => if c.level = 3 then Connect.relabel octets else return octets
  | _ => return octets

variable {p : Packet} {octets : Octets}

theorem encode_eq (hp : ∀ kind octets, p ≠ .other kind octets) :
    p.encode = (do p.check; p.finish (← fill p.reckoned p.draft)) := by
  cases p with
  | connect c => rfl
  | publish p =>
    simp only [encode, check, finish, reckoned, draft, bind_assoc, bind_pure]
    cases hid : p.wireId with
    | error fault => rfl
    | ok id =>
      rw [(fits_of_wireId hid).2]
      rfl
  | other kind octets => exact absurd rfl (hp kind octets)
  | _ => simp only [encode, check, finish, reckoned, draft, bind_assoc, pure_bind, bind_pure]

/-- The draft of a checked packet has as many octets as are reckoned behind its header. -/
theorem draft_eq_frame (hp : ∀ kind octets, p ≠ .other kind octets) (h : p.check = .ok ()) :
    ∃ head body, p.draft = frame head body ∧ body.length = p.reckoned := by
  cases p with
  | connect c => exact ⟨_, _, rfl, c.length_write.symm⟩
  | publish p =>
    obtain ⟨id, hid, -⟩ := bind_eq_ok_iff.mp h
    refine ⟨_, _, rfl, ?_⟩
    rw [← (fits_of_wireId hid).2]
    exact (length_publish hid).symm
  | subscribe s => exact ⟨_, _, rfl, (length_subscribe s).symm⟩
  | unsubscribe u => exact ⟨_, _, rfl, (length_unsubscribe u).symm⟩
  | other kind octets => exact absurd rfl (hp kind octets)
  | _ => exact ⟨_, [], rfl, rfl⟩

theorem length_draft (hp : ∀ kind octets, p ≠ .other kind octets) (h : p.check = .ok ()) :
    p.draft.length = 1 + (RemainingLength.encode p.reckoned).length + p.reckoned := by
  obtain ⟨head, body, hdraft, hbody⟩ := draft_eq_frame hp h
  rw [hdraft, length_frame, hbody]

/-- The draft of a checked packet is filled into the room for it, unless it is longer than any. -/
theorem fill_draft (hp : ∀ kind octets, p ≠ .other kind octets) (h : p.check = .ok ()) :
    fill p.reckoned p.draft =
      if p.reckoned ≤ RemainingLength.limit then .ok p.draft
      else .error (.packetTooLong p.reckoned) := by
  obtain ⟨head, body, hdraft, hbody⟩ := draft_eq_frame hp h
  rw [hdraft, fill_frame hbody.symm]

/-- What is written for a packet is what its draft is finished to. -/
theorem encode_eq_ok (hp : ∀ kind octets, p ≠ .other kind octets) (h : p.encode = .ok octets) :
    p.check = .ok () ∧ p.reckoned ≤ RemainingLength.limit ∧
      fill p.reckoned p.draft = .ok p.draft ∧ p.finish p.draft = .ok octets := by
  rw [encode_eq hp] at h
  obtain ⟨hcheck, h⟩ := check_bind_eq_ok_iff.mp h
  rw [fill_draft hp hcheck] at h ⊢
  split at h
  case isTrue hlimit => exact ⟨hcheck, hlimit, if_pos hlimit, h⟩
  case isFalse => cases h

end Packet

/-! ## Relabeling -/

namespace Connect

variable {octets : Octets}

/-- What is written of a CONNECT for another level than 3 is relabeled to what is written of it for
level 3. -/
theorem relabel_encoded {c : Connect} (hlevel : c.level ≠ 3)
    (h : (Packet.connect c).encode = .ok octets) :
    ∃ fields relabeled,
      octets = 0x10 :: RemainingLength.encode c.size ++ (mqtt ++ fields) ∧
      relabeled = 0x10 :: RemainingLength.encode (c.size + 2) ++ (mqisdp ++ fields) ∧
      relabel octets = .ok relabeled ∧
      (Packet.connect { c with level := 3 }).encode = .ok relabeled ∧
      Packet.decode relabeled = .ok (.connect { c with level := 3 }) := by
  let former : Connect := { c with level := 3 }
  have hconnect (c : Connect) : ∀ kind octets, Packet.connect c ≠ .other kind octets :=
    fun _ _ => nofun
  obtain ⟨hcheck, -, hfill, hfinish⟩ := Packet.encode_eq_ok (hconnect c) h
  have hsame : Packet.frame 0x10 c.write = octets := by
    rw [Packet.finish, if_neg hlevel] at hfinish
    cases hfinish
    rfl
  have hformer : (Packet.connect former).encode = relabel octets := by
    -- the level is looked at only when the frame is finished
    have hcheck : (Packet.connect former).check = .ok () := hcheck
    have hfill : Packet.fill (Packet.connect former).reckoned (Packet.connect former).draft =
        .ok octets := hsame ▸ hfill
    rw [Packet.encode_eq (hconnect former), hcheck, hfill]
    rfl
  have hfits : former.Fits := check_iff.mp hcheck
  have hlength : (mqisdp ++ c.writeFields).length = c.size + 2 := former.length_body
  have hrelabel : relabel octets = .ok (Packet.frame 0x10 (mqisdp ++ c.writeFields)) :=
    hsame ▸ relabel_frame hfits.body_le
  have hencode := hformer.trans hrelabel
  refine ⟨c.writeFields, _, ?_, ?_, hrelabel, hencode, (Packet.decode_connect hencode).2⟩
  · rw [← hsame, Packet.frame, ← length_write]
    rfl
  · rw [Packet.frame, hlength]

end Connect

/-! ## All sizes -/

namespace Packet

open RemainingLength Connect

/-- A length up to the limit is written in as many octets as its width says, and read back from no
fewer; a greater one has no width. A packet is written by filling the room for its draft, which has
just the size reckoned once the packet is checked. A CONNECT is relabeled to the same with the
former name and level and a length that is greater by two, as long as there is one. -/
theorem sizes_agree :
    (∀ n, (n ≤ limit → Exact n) ∧
      (limit < n → width? n = none ∧ ∀ octets, fill n octets = .error (.packetTooLong n))) ∧
    (∀ p : Packet, (∀ kind octets, p ≠ .other kind octets) →
      p.encode = (do p.check; p.finish (← fill p.reckoned p.draft)) ∧
      (p.check = .ok () → fill p.reckoned p.draft ≠ .error .noRoom) ∧
      ∀ octets, p.encode = .ok octets → ∃ width, width? p.reckoned = some width ∧
        p.draft.length = 1 + width + p.reckoned ∧ p.finish p.draft = .ok octets) ∧
    (∀ head rest, (mqtt ++ rest).length ≤ limit → relabel (frame head (mqtt ++ rest)) =
      if (mqtt ++ rest).length + 2 ≤ limit then .ok (frame head (mqisdp ++ rest))
      else .error (.packetTooLong ((mqtt ++ rest).length + 2))) ∧
    ∀ c octets, c.level ≠ 3 → (Packet.connect c).encode = .ok octets → ∃ fields relabeled,
      octets = 0x10 :: RemainingLength.encode c.size ++ (mqtt ++ fields) ∧
      relabeled = 0x10 :: RemainingLength.encode (c.size + 2) ++ (mqisdp ++ fields) ∧
      relabel octets = .ok relabeled ∧
      (Packet.connect { c with level := 3 }).encode = .ok relabeled ∧
      decode relabeled = .ok (.connect { c with level := 3 }) := by
  refine ⟨fun n => ⟨exact_of_le, fun hn => ⟨width?_eq_none hn, fun octets => ?_⟩⟩,
    fun p hp => ⟨encode_eq hp, fun hcheck hroom => ?_, fun octets h => ?_⟩, relabel_frame_eq,
    fun c octets => relabel_encoded⟩
  · rw [fill, width?_eq_none hn]
  · rw [fill_draft hp hcheck] at hroom
    split at hroom <;> cases hroom
  · obtain ⟨hcheck, hlimit, -, hfinish⟩ := encode_eq_ok hp h
    exact ⟨_, (exact_of_le hlimit).width, length_draft hp hcheck, hfinish⟩

/-- Relabeling makes the length itself longer: 126 is spelled by one octet, and 128 by none but
two. -/
theorem widening_relabeled :
    width? 126 = some 1 ∧ (∀ bs rest, read bs = .done 128 rest → rest.length + 2 ≤ bs.length) ∧
    width? 268435456 = none ∧
    ∃ octets relabeled, (Packet.connect { widening with level := 4 }).encode = .ok octets ∧
      relabel octets = .ok relabeled ∧ decode relabeled = .ok (.connect widening) := by
  obtain ⟨hlengths, -, -, hrelabel⟩ := sizes_agree
  have hlarge := (hlengths 128).1 (by decide)
  have hfits : Connect.Fits { widening with level := 4 } := ⟨widening_fits.1, widening_fits.2,
    widening_fits.3, widening_fits.4, widening_fits.5, widening_fits.6⟩
  have hencode := encode_connect_iff.mpr ⟨hfits, rfl, hfits.body_le⟩
  obtain ⟨_, relabeled, -, -, hrelabeled, -, hdecode⟩ := hrelabel _ _ (by decide) hencode
  refine ⟨rfl, fun bs rest h => ?_, ((hlengths 268435456).2 (by decide)).1, _, relabeled, hencode,
    hrelabeled, hdecode⟩
  have hwidth : (RemainingLength.encode 128).length = 2 := (Option.some.inj hlarge.width).symm
  obtain ⟨spelled, rfl, hle⟩ := hlarge.shortest bs rest h
  rw [List.length_append]
  omega

end Packet
end MqttGateway
