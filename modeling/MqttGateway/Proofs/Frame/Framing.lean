import MqttGateway.Proofs.Frame.Stream
import MqttGateway.Proofs.Packet.Refusal
/-!
# How a stream is split

Main statement: a stream that ends is split without a gap into the frames that are taken, what the
last attempt takes, and an unread rest. Each frame ends where its own length says, for whoever reads
the stream as well as for whoever decodes the frame, and what is left at the end tells how the last
attempt fails.
-/
namespace MqttGateway

theorem isFrame_cons_iff {head : UInt8} {after : Octets} : IsFrame (head :: after) ↔
    ∃ body, RemainingLength.read after = .done body.length body := by
  simp only [RemainingLength.read_eq_done_iff]
  constructor
  · rintro ⟨_, lengths, body, heq, hspells⟩
    cases heq
    exact ⟨body, lengths, hspells, rfl⟩
  · rintro ⟨body, lengths, hspells, rfl⟩
    exact ⟨head, lengths, body, rfl, hspells⟩

/-- The extent of a frame is found whatever follows it, and the frame ends there. -/
theorem IsFrame.extent {octets : Octets} (h : IsFrame octets) (more : Octets) :
    ∃ start length, RemainingLength.extent (octets ++ more) = .whole start length ∧
      start + length = octets.length := by
  obtain ⟨head, lengths, body, rfl, hspells⟩ := h
  rw [List.cons_append, List.append_assoc, RemainingLength.extent_cons, hspells.read,
    RemainingLength.Reading.extent, if_neg (by rw [List.length_append]; omega)]
  refine ⟨_, _, rfl, ?_⟩
  simp only [List.length_cons, List.length_append]
  omega

/-- A whole frame that cannot be decoded is refused for what stands in it. -/
theorem IsFrame.ofContent {octets : Octets} {halt : Halt} (h : IsFrame octets)
    (hdecode : Packet.decode octets = .error halt) : halt.OfContent := by
  obtain ⟨head, after, rfl⟩ := List.exists_cons_of_ne_nil h.ne_nil
  obtain ⟨body, hread⟩ := isFrame_cons_iff.mp h
  exact Packet.decode_blames hread (Nat.le_refl _) hdecode

theorem Unfinished.completion {after : Octets} (h : Unfinished after) (head : UInt8) :
    ∃ more, more ≠ [] ∧ IsFrame (head :: after ++ more) := by
  rcases h with h | ⟨length, body, h, hlt⟩
  · obtain ⟨hlength, hupper⟩ := RemainingLength.read_eq_short_iff.mp h
    -- a zero octet ends the length, and zeros are as good a body as any
    have hspells : RemainingLength.Spells (after ++ [0]) (RemainingLength.value (after ++ [0])) :=
      ⟨after, 0, rfl, hlength, hupper, by decide, rfl⟩
    refine ⟨0 :: List.replicate (RemainingLength.value (after ++ [0])) 0, List.cons_ne_nil _ _,
      head, after ++ [0], List.replicate (RemainingLength.value (after ++ [0])) 0, ?_, ?_⟩
    · rw [List.cons_append, List.append_assoc, List.singleton_append]
    · rw [List.length_replicate]
      exact hspells
  · obtain ⟨lengths, hspells, rfl⟩ := RemainingLength.read_eq_done_iff.mp h
    refine ⟨List.replicate (length - body.length) 0, ?_, head, lengths,
      body ++ List.replicate (length - body.length) 0, ?_, ?_⟩
    · intro hnil
      have hzero := congrArg List.length hnil
      rw [List.length_replicate, List.length_nil] at hzero
      omega
    · rw [List.cons_append, List.append_assoc]
    · rw [List.length_append, List.length_replicate, Nat.add_sub_cancel' (Nat.le_of_lt hlt)]
      exact hspells

/-- A frame has begun and is not finished exactly if octets can follow that finish it. -/
theorem unfinished_iff {head : UInt8} {after : Octets} :
    Unfinished after ↔ ∃ more, more ≠ [] ∧ IsFrame (head :: after ++ more) := by
  refine ⟨fun h => h.completion head, ?_⟩
  rintro ⟨more, hne, h⟩
  obtain ⟨body, hread⟩ := isFrame_cons_iff.mp h
  cases hr : RemainingLength.read after with
  | short => exact .inl hr
  | overlong =>
    cases (RemainingLength.read_append_of_overlong hr more).symm.trans hread
  | done length body' =>
    obtain ⟨lengths, hspells, rfl⟩ := RemainingLength.read_eq_done_iff.mp hr
    have hmore := hspells.read (body' ++ more)
    rw [← List.append_assoc] at hmore
    cases hmore.symm.trans hread
    refine .inr ⟨_, body', hr, ?_⟩
    have hpos := List.length_pos_iff.mpr hne
    rw [List.length_append]
    omega

namespace Inlet

inductive Splits (left : Octets) : Taken → Prop
  | ended : left = [] → Splits left .closed
  | frame {octets rest : Octets} {packet : Packet} : IsFrame octets → left = octets ++ rest →
      Packet.decode octets = .ok packet → Splits left (.frame ⟨packet, some octets⟩ rest)
  | truncated {more : Octets} : left ≠ [] → more ≠ [] → IsFrame (left ++ more) →
      Splits left (.failed (.error .truncated) [])
  | overlong {head : UInt8} {four rest : Octets} : left = head :: (four ++ rest) →
      four.length = 4 → (∀ b ∈ four, 128 ≤ b.toNat) →
      Splits left (.failed (.error .remainingLength) rest)
  | malformed {octets rest : Octets} {fault : DecodeFault} : IsFrame octets →
      left = octets ++ rest → Packet.decode octets = .error (.error (.malformed fault)) →
      Splits left (.failed (.error (.malformed fault)) rest)
  | overrun {octets rest : Octets} : IsFrame octets → left = octets ++ rest →
      Packet.decode octets = .error .overrun → Splits left (.failed .overrun rest)

/-- What is taken off the octets that are left is exactly what they can be split into. -/
theorem take_closed_iff {left : Octets} {t : Taken} :
    take ⟨left, .closed⟩ = t ↔ Splits left t := by
  constructor
  · rintro rfl
    cases left with
    | nil => exact .ended rfl
    | cons head after =>
      rcases begins head after with hunfinished | hoverlong | ⟨octets, rest, hframe, hsplit⟩
      · obtain ⟨more, hne, hframe⟩ := hunfinished.completion head
        rw [take_unfinished hunfinished]
        exact .truncated (List.cons_ne_nil _ _) hne hframe
      · obtain ⟨hlength, hupper⟩ := RemainingLength.read_eq_overlong_iff.mp hoverlong
        have hsplit : head :: after = head :: (after.take 4 ++ after.drop 4) := by
          rw [List.take_append_drop]
        rw [take_overlong hoverlong]
        exact .overlong hsplit (by rw [List.length_take, Nat.min_eq_left hlength]) hupper
      · rw [hsplit, take_isFrame hframe]
        cases hdecode : Packet.decode octets with
        | ok packet => exact .frame hframe rfl hdecode
        | error halt =>
          rcases hframe.ofContent hdecode with rfl | ⟨fault, rfl⟩
          · exact .overrun hframe rfl hdecode
          · exact .malformed hframe rfl hdecode
  · intro h
    cases h with
    | ended hnil => rw [hnil]; rfl
    | frame hframe hsplit hdecode => rw [hsplit, take_isFrame hframe, hdecode]
    | malformed hframe hsplit hdecode => rw [hsplit, take_isFrame hframe, hdecode]
    | overrun hframe hsplit hdecode => rw [hsplit, take_isFrame hframe, hdecode]
    | truncated hne hmore hframe =>
      obtain ⟨head, after, rfl⟩ := List.exists_cons_of_ne_nil hne
      rw [take_unfinished (unfinished_iff.mpr ⟨_, hmore, hframe⟩), interrupted]
    | @overlong head four rest hsplit hlength hupper =>
      have hread : RemainingLength.read (four ++ rest) = .overlong := by
        rw [RemainingLength.read_eq_overlong_iff, List.length_append, List.take_left' hlength]
        exact ⟨by omega, hupper⟩
      rw [hsplit, take_overlong hread, List.drop_left' hlength]

/-- Nobody who takes a frame finds that the decoder misses a part of it. -/
theorem take_ne_incomplete (inlet : Inlet) (rest : Octets) :
    inlet.take ≠ .failed (.error .incomplete) rest := by
  obtain ⟨bs, ending⟩ := inlet
  cases bs with
  | nil => cases ending <;> nofun
  | cons head after =>
    rcases begins head after with hunfinished | hoverlong | ⟨octets, more, hframe, hsplit⟩
    · rw [take_unfinished hunfinished]
      cases ending <;> nofun
    · rw [take_overlong hoverlong]
      nofun
    · rw [hsplit, take_isFrame hframe]
      cases hdecode : Packet.decode octets with
      | ok packet => nofun
      | error halt =>
        rintro ⟨⟩
        rcases hframe.ofContent hdecode with h | ⟨fault, h⟩ <;> cases h

def unread (bs : Octets) : Octets :=
  match h : take ⟨bs, .closed⟩ with
  | .frame _ rest =>
    have := take_shorter h
    unread rest
  | _ => bs
termination_by bs.length

theorem unread_nil : unread [] = [] := by
  rw [unread]
  split
  case h_1 h => cases h
  case h_2 => rfl

theorem unread_of_take {bs rest : Octets} {f : Frame}
    (h : take ⟨bs, .closed⟩ = .frame f rest) : unread bs = unread rest := by
  rw [unread]
  split
  case h_1 f' rest' h' =>
    rw [h] at h'
    cases h'
    rfl
  case h_2 hno => exact absurd h (hno f rest)

/-- Where nothing is left unread there is nothing or a frame. -/
theorem exists_take_of_unread {bs : Octets} (hne : bs ≠ []) (h : unread bs = []) (ending : Ending) :
    ∃ f rest, take ⟨bs, ending⟩ = .frame f rest := by
  rw [unread] at h
  split at h
  case h_1 f rest htake =>
    have hframe := take_append [] ending htake
    rw [List.append_nil] at hframe
    exact ⟨_, _, hframe⟩
  case h_2 => exact absurd h hne

theorem Yields.unread {bs rest : Octets} {fs : List Frame} (h : Yields bs fs rest) :
    Inlet.unread bs = Inlet.unread rest := by
  induction h with
  | nil => rfl
  | snoc _ htake ih =>
    have hclosed := take_append [] .closed htake
    rw [List.append_nil, List.append_nil] at hclosed
    rw [ih, unread_of_take hclosed]

/-- The frames and the unread rest are found by taking a frame as long as there is one. -/
theorem frames_induction {motive : Octets → Prop} (bs : Octets)
    (none : ∀ left, (∀ f rest, take ⟨left, .closed⟩ ≠ .frame f rest) → frames left = [] →
      unread left = left → motive left)
    (more : ∀ left f rest, take ⟨left, .closed⟩ = .frame f rest → motive rest → motive left) :
    motive bs := by
  fun_induction unread bs with
  | case1 bs f rest htake _ ih => exact more bs f rest htake ih
  | case2 bs hno =>
    refine none bs hno ?_ ?_
    · rw [frames]
      split
      case h_1 f rest htake => exact absurd htake (hno f rest)
      case h_2 => rfl
    · rw [unread]
      split
      case h_1 f rest htake => exact absurd htake (hno f rest)
      case h_2 => rfl

theorem frames_append_unread (bs : Octets) :
    (frames bs).flatMap (fun f => f.received.getD []) ++ unread bs = bs := by
  induction bs using frames_induction with
  | none left _ hframes hunread => rw [hframes, hunread, List.flatMap_nil, List.nil_append]
  | more left f rest htake ih =>
    obtain ⟨octets, -, hsplit, hreceived, -⟩ := take_eq_frame_iff.mp htake
    rw [frames_of_take htake, unread_of_take htake, List.flatMap_cons, List.append_assoc, ih,
      hreceived, hsplit, Option.getD_some]

theorem isFrame_of_mem_frames {bs : Octets} {f : Frame} (hf : f ∈ frames bs) :
    ∃ octets, f.received = some octets ∧ IsFrame octets ∧ Packet.decode octets = .ok f.packet := by
  induction bs using frames_induction with
  | none left _ hframes _ =>
    rw [hframes] at hf
    cases hf
  | more left g rest htake ih =>
    rw [frames_of_take htake] at hf
    rcases List.mem_cons.mp hf with rfl | hf
    · obtain ⟨octets, hframe, -, hreceived, hdecode⟩ := take_eq_frame_iff.mp htake
      exact ⟨octets, hreceived, hframe, hdecode⟩
    · exact ih hf

theorem take_unread_ne_frame (bs : Octets) (f : Frame) (rest : Octets) :
    take ⟨unread bs, .closed⟩ ≠ .frame f rest := by
  induction bs using frames_induction with
  | none left hno _ hunread =>
    rw [hunread]
    exact hno f rest
  | more left _ _ htake ih =>
    rw [unread_of_take htake]
    exact ih

/-- A stream that ends is its frames one after another and an unread rest. Every frame is as long as
it says, to the decoder as well, and has been decoded. What is taken off the rest is no frame, and
is exactly what the rest can be split into. -/
theorem closed_stream_splits (bs : Octets) :
    bs = (frames bs).flatMap (fun f => f.received.getD []) ++ unread bs ∧
    (∀ f ∈ frames bs, ∃ octets, f.received = some octets ∧ IsFrame octets ∧
      Packet.decode octets = .ok f.packet) ∧
    (∀ f rest, take ⟨unread bs, .closed⟩ ≠ .frame f rest) ∧
    (∀ t, take ⟨unread bs, .closed⟩ = t ↔ Splits (unread bs) t) ∧
    (∀ octets more, IsFrame octets → ∃ start length,
      RemainingLength.extent (octets ++ more) = .whole start length ∧
        start + length = octets.length) ∧
    ∀ inlet rest, take inlet ≠ .failed (.error .incomplete) rest :=
  ⟨(frames_append_unread bs).symm, fun _ hf => isFrame_of_mem_frames hf, take_unread_ne_frame bs,
    fun _ => take_closed_iff, fun _ more h => h.extent more, take_ne_incomplete⟩

end Inlet
end MqttGateway
