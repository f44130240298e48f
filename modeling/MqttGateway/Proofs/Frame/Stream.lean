import MqttGateway.Frame
import MqttGateway.Proofs.Packet.Length
/-!
# The frames of a stream

A stream starts with a part of a frame, with a length that is too long, or with a whole frame. A
whole frame is taken as it is, whatever follows it: what arrives later changes neither the frame nor
where it ends. So a stream has its frames whether they are taken as they come or all at once.
-/
namespace MqttGateway

/-- A head, octets that spell a length, and as many octets as they say. -/
def IsFrame (octets : Octets) : Prop :=
  ∃ head lengths body, octets = head :: (lengths ++ body) ∧
    RemainingLength.Spells lengths body.length

theorem IsFrame.ne_nil {octets : Octets} (h : IsFrame octets) : octets ≠ [] := by
  obtain ⟨head, lengths, body, rfl, -⟩ := h
  exact List.cons_ne_nil _ _

/-- Behind the head of a frame there are fewer octets than are to come, as far as its length can be
read. -/
def Unfinished (after : Octets) : Prop :=
  RemainingLength.read after = .short ∨
    ∃ length body, RemainingLength.read after = .done length body ∧ body.length < length

/-- A stream that has begun starts with a part of a frame, with a length of too many octets, or with
a whole frame. -/
theorem begins (head : UInt8) (after : Octets) : Unfinished after ∨
    RemainingLength.read after = .overlong ∨
    ∃ octets rest, IsFrame octets ∧ head :: after = octets ++ rest := by
  cases hread : RemainingLength.read after with
  | short => exact .inl (.inl hread)
  | overlong => exact .inr (.inl rfl)
  | done length body =>
    by_cases hlt : body.length < length
    · exact .inl (.inr ⟨_, _, hread, hlt⟩)
    · obtain ⟨lengths, hspells, rfl⟩ := RemainingLength.read_eq_done_iff.mp hread
      refine .inr (.inr ⟨head :: (lengths ++ body.take length), body.drop length,
        ⟨head, lengths, body.take length, rfl, ?_⟩, ?_⟩)
      · rw [List.length_take, Nat.min_eq_left (Nat.not_lt.mp hlt)]
        exact hspells
      · rw [List.cons_append, List.append_assoc, List.take_append_drop]

/-- Whoever reads the octets of the frame takes that frame, and nothing of what follows it. -/
def Frame.Intact (f : Frame) : Prop :=
  ∃ octets, f.received = some octets ∧
    ∀ more ending, Inlet.take ⟨octets ++ more, ending⟩ = .frame f more

def Frame.octets (f : Frame) : Octets :=
  f.received.getD []

namespace Inlet

/-- What is taken off a whole frame is what it decodes to. -/
theorem take_isFrame {octets : Octets} (h : IsFrame octets) (rest : Octets) (ending : Ending) :
    take ⟨octets ++ rest, ending⟩ = match Packet.decode octets with
      | .ok packet => .frame ⟨packet, some octets⟩ rest
      | .error halt => .failed halt rest := by
  obtain ⟨head, lengths, body, rfl, hspells⟩ := h
  have hread := hspells.read (body ++ rest)
  have hgroups := hspells.groups (body ++ rest)
  cases hdecode : Packet.decode (head :: (lengths ++ body)) <;>
    simp only [List.cons_append, List.append_assoc, take, hread, hgroups, List.take_left,
      List.drop_left, Nat.lt_irrefl, if_false, hdecode]

theorem take_unfinished {after : Octets} (h : Unfinished after) (head : UInt8) (ending : Ending) :
    take ⟨head :: after, ending⟩ = interrupted ending := by
  rcases h with hread | ⟨length, body, hread, hlt⟩
  · simp only [take, hread]
  · have hshort : (body.take length).length < length := by
      rw [List.length_take]
      omega
    simp only [take, hread, hshort, if_true]

theorem take_overlong {after : Octets} (h : RemainingLength.read after = .overlong) (head : UInt8)
    (ending : Ending) :
    take ⟨head :: after, ending⟩ = .failed (.error .remainingLength) (after.drop 4) := by
  simp only [take, h]

/-- A reader finds the end only where nothing is left. -/
theorem take_eq_closed {inlet : Inlet} (h : inlet.take = .closed) : inlet = ⟨[], .closed⟩ := by
  obtain ⟨arrived, ending⟩ := inlet
  cases arrived with
  | nil => cases ending <;> first | rfl | cases h
  | cons head after =>
    rcases begins head after with hunfinished | hoverlong | ⟨octets, rest, hframe, hsplit⟩
    · rw [take_unfinished hunfinished] at h
      cases ending <;> cases h
    · rw [take_overlong hoverlong] at h
      cases h
    · rw [hsplit, take_isFrame hframe] at h
      cases hdecode : Packet.decode octets <;> rw [hdecode] at h <;> cases h

/-- A frame is taken exactly when its octets stand at the start and can be decoded. -/
theorem take_eq_frame_iff {bs rest : Octets} {ending : Ending} {f : Frame} :
    take ⟨bs, ending⟩ = .frame f rest ↔ ∃ octets, IsFrame octets ∧ bs = octets ++ rest ∧
      f.received = some octets ∧ Packet.decode octets = .ok f.packet := by
  constructor
  · intro h
    cases bs with
    | nil => cases ending <;> cases h
    | cons head after =>
      rcases begins head after with hunfinished | hoverlong | ⟨octets, more, hframe, hsplit⟩
      · rw [take_unfinished hunfinished] at h
        cases ending <;> cases h
      · rw [take_overlong hoverlong] at h
        cases h
      · rw [hsplit, take_isFrame hframe] at h
        cases hdecode : Packet.decode octets with
        | error halt =>
          rw [hdecode] at h
          cases h
        | ok packet =>
          rw [hdecode] at h
          cases h
          exact ⟨octets, hframe, hsplit, rfl, hdecode⟩
  · rintro ⟨octets, hframe, rfl, hreceived, hdecode⟩
    obtain ⟨packet, received⟩ := f
    cases hreceived
    rw [take_isFrame hframe, hdecode]

/-- Later octets and another ending do not change the frame that is taken. -/
theorem take_append {bs rest : Octets} {ending : Ending} {f : Frame} (more : Octets)
    (later : Ending) (h : take ⟨bs, ending⟩ = .frame f rest) :
    take ⟨bs ++ more, later⟩ = .frame f (rest ++ more) := by
  obtain ⟨octets, hframe, rfl, hreceived, hdecode⟩ := take_eq_frame_iff.mp h
  exact take_eq_frame_iff.mpr ⟨octets, hframe, List.append_assoc .., hreceived, hdecode⟩

/-- What stops a reader while more may come stops it in the same way once more has come. -/
theorem take_failed_append {bs rest : Octets} {halt : Halt} (more : Octets) (later : Ending)
    (h : take ⟨bs, .open⟩ = .failed halt rest) :
    take ⟨bs ++ more, later⟩ = .failed halt (rest ++ more) := by
  cases bs with
  | nil => cases h
  | cons head after =>
    rcases begins head after with hunfinished | hoverlong | ⟨octets, left, hframe, hsplit⟩
    · rw [take_unfinished hunfinished] at h
      cases h
    · have hlong := RemainingLength.read_append_of_overlong hoverlong more
      obtain ⟨hlength, -⟩ := RemainingLength.read_eq_overlong_iff.mp hoverlong
      rw [take_overlong hoverlong] at h
      cases h
      rw [List.cons_append, take_overlong hlong, List.drop_append_of_le_length hlength]
    · rw [hsplit, take_isFrame hframe] at h
      rw [hsplit, List.append_assoc, take_isFrame hframe]
      cases hdecode : Packet.decode octets with
      | ok packet =>
        rw [hdecode] at h
        cases h
      | error halt =>
        rw [hdecode] at h
        cases h
        rfl

theorem take_shorter {bs rest : Octets} {ending : Ending} {f : Frame}
    (h : take ⟨bs, ending⟩ = .frame f rest) : rest.length < bs.length := by
  obtain ⟨octets, hframe, rfl, -, -⟩ := take_eq_frame_iff.mp h
  have := List.length_pos_iff.mpr hframe.ne_nil
  rw [List.length_append]
  omega

theorem take_intact {bs rest : Octets} {ending : Ending} {f : Frame}
    (h : take ⟨bs, ending⟩ = .frame f rest) : f.Intact := by
  obtain ⟨octets, hframe, -, hreceived, hdecode⟩ := take_eq_frame_iff.mp h
  exact ⟨octets, hreceived, fun more later =>
    take_eq_frame_iff.mpr ⟨octets, hframe, rfl, hreceived, hdecode⟩⟩

def frames (bs : Octets) : List Frame :=
  match h : take ⟨bs, .closed⟩ with
  | .frame f rest =>
    have := take_shorter h
    f :: frames rest
  | _ => []
termination_by bs.length

theorem frames_nil : frames [] = [] := by
  rw [frames]
  split
  case h_1 h => cases h
  case h_2 => rfl

theorem frames_of_take {bs rest : Octets} {ending : Ending} {f : Frame}
    (h : take ⟨bs, ending⟩ = .frame f rest) : frames bs = f :: frames rest := by
  have hclosed : take ⟨bs, .closed⟩ = .frame f rest := by
    simpa using take_append [] .closed h
  rw [frames]
  split
  case h_1 f' rest' h' =>
    rw [hclosed] at h'
    cases h'
    rfl
  case h_2 hno => exact absurd hclosed (hno f rest)

/-- `fs` are taken from `bs` one after another, and `rest` is left. -/
inductive Yields (bs : Octets) : List Frame → Octets → Prop
  | nil : Yields bs [] bs
  | snoc {fs : List Frame} {f : Frame} {mid rest : Octets} {ending : Ending} : Yields bs fs mid →
      take ⟨mid, ending⟩ = .frame f rest → Yields bs (fs ++ [f]) rest

theorem Yields.append {bs rest : Octets} {fs : List Frame} (more : Octets) (h : Yields bs fs rest) :
    Yields (bs ++ more) fs (rest ++ more) := by
  induction h with
  | nil => exact .nil
  | snoc _ htake ih => exact .snoc ih (take_append more .closed htake)

theorem Yields.frames {bs rest : Octets} {fs : List Frame} (h : Yields bs fs rest) :
    Inlet.frames bs = fs ++ Inlet.frames rest := by
  induction h with
  | nil => rfl
  | snoc _ htake ih => rw [ih, frames_of_take htake, List.append_assoc, List.singleton_append]

/-- Frames that were taken one after another are the first frames of the stream. -/
theorem Yields.isPrefix {bs rest : Octets} {fs : List Frame} (h : Yields bs fs rest) :
    fs <+: Inlet.frames bs :=
  ⟨Inlet.frames rest, h.frames.symm⟩

theorem Yields.intact {bs rest : Octets} {fs : List Frame} (h : Yields bs fs rest) :
    ∀ f ∈ fs, f.Intact := by
  induction h with
  | nil => nofun
  | snoc _ htake ih =>
    intro f hf
    rcases List.mem_append.mp hf with hf | hf
    · exact ih f hf
    · rw [List.mem_singleton.mp hf]
      exact take_intact htake

/-- No octet is lost between the frames that are taken. -/
theorem Yields.octets {bs rest : Octets} {fs : List Frame} (h : Yields bs fs rest) :
    bs = fs.flatMap (·.octets) ++ rest := by
  induction h with
  | nil => rfl
  | snoc _ htake ih =>
    obtain ⟨octets, -, hsplit, hreceived, -⟩ := take_eq_frame_iff.mp htake
    rw [ih, hsplit, List.flatMap_append, List.flatMap_singleton, Frame.octets, hreceived,
      Option.getD_some, List.append_assoc]

end Inlet
end MqttGateway
