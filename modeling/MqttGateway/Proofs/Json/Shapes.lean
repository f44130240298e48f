import MqttGateway.Json.Shape
import MqttGateway.Proofs.Checks
import MqttGateway.Proofs.Json.Printing
/-!
# Lawful shapes

A shape is lawful if it reads back what it writes and writes only whole values. Main statement: a
record of lawful fields is lawful if its keys differ, those it must have are among them, and the
fields together carry all that there is of it.
-/
namespace MqttGateway.Json

structure Shape.Lawful {α : Type} (shape : Shape α) : Prop where
  read_write : ∀ a, shape.read (shape.write a) = .ok a
  whole : ∀ a, (shape.write a).Whole

namespace Shape

variable {α : Type}

theorem string_lawful : string.Lawful :=
  ⟨fun _ => rfl, .string⟩

theorem bool_lawful : bool.Lawful :=
  ⟨fun _ => rfl, .bool⟩

theorem integer_lawful {toInt : α → Int} {ofInt? : Int → Option α}
    (hof : ∀ a, ofInt? (toInt a) = some a) (hrange : ∀ a, (toInt a).natAbs < overflow) :
    (integer toInt ofInt?).Lawful := by
  refine ⟨fun a => ?_, fun a => .number (hrange a)⟩
  simp only [integer, hof]

theorem two_pow_lt_overflow : 2 ^ 64 < overflow := by
  decide +kernel

theorem uint64_lawful : uint64.Lawful := by
  refine integer_lawful (fun n => ?_) fun n => ?_
  · have hn := n.toNat_lt
    rw [if_pos ⟨by omega, by exact_mod_cast hn⟩]
    simp
  · exact Nat.lt_trans n.toNat_lt two_pow_lt_overflow

theorem int32_lawful : int32.Lawful := by
  refine integer_lawful (fun n => ?_) fun n => ?_
  · have hlow := n.le_toInt
    have hhigh := n.toInt_lt
    rw [if_pos ⟨by omega, by omega⟩, Int32.ofInt_toInt]
  · have hlow := n.le_toInt
    have hhigh := n.toInt_lt
    have hoverflow := two_pow_lt_overflow
    omega

theorem word_lawful {toWord : α → String} {ofWord? : String → Option α}
    (hof : ∀ a, ofWord? (toWord a) = some a) : (word toWord ofWord?).Lawful := by
  refine ⟨fun a => ?_, fun a => .string _⟩
  simp only [word, hof]

theorem choice_lawful {name : α → String} {ofName? : String → Option α}
    (hof : ∀ a, ofName? (name a) = some a) : (choice name ofName?).Lawful := by
  refine ⟨fun a => ?_, fun a => .string _⟩
  simp only [choice, hof]

/-- Nothing is told from what is null. -/
theorem optional_lawful {shape : Shape α} (h : shape.Lawful) (hnull : ∀ a, shape.write a ≠ .null) :
    shape.optional.Lawful := by
  constructor
  · rintro (_ | a)
    · rfl
    · simp only [optional]
      split
      · exact absurd ‹_› (hnull a)
      · rw [h.read_write]
        rfl
  · rintro (_ | a)
    · exact .null
    · exact h.whole a

theorem list_lawful {shape : Shape α} (h : shape.Lawful) : shape.list.Lawful := by
  constructor
  · intro as
    have hitems : (as.map shape.write).mapM shape.read = .ok as :=
      mapM_eq_ok_iff.mpr (List.forall₂_map_left_iff.mpr (List.forall₂_same.mpr fun a _ =>
        h.read_write a))
    simp only [list, Json.list, hitems]
    rfl
  · intro as
    refine .array fun v hv => ?_
    obtain ⟨a, -, rfl⟩ := List.mem_map.mp hv
    exact h.whole a

end Shape

/-! ## Records -/

variable {σ : Type}

/-- Written from one record and read into another, a field takes over what it stands for. -/
structure Field.Carries (field : Field σ) (carry : σ → σ → σ) : Prop where
  whole : ∀ s, (field.write s).Whole
  read_write : ∀ s t, field.read (field.write s) t = .ok (carry s t)

theorem Field.carries_of_cons {α : Type} {shape : Shape α} (h : shape.Lawful) {key : String}
    {get : σ → α} {put : σ → α → σ} {fields : List (Field σ)} {carries : List (σ → σ → σ)}
    (hfields : List.Forall₂ Field.Carries fields carries) :
    List.Forall₂ Field.Carries (Field.of key shape get put :: fields)
      ((fun s t => put t (get s)) :: carries) := by
  refine .cons ⟨fun s => h.whole _, fun s t => ?_⟩ hfields
  simp only [Field.of, h.read_write]
  rfl

namespace Record

structure Lawful (r : Record σ) (carries : List (σ → σ → σ)) : Prop where
  nodup : (r.fields.map (·.key)).Nodup
  required : r.required ⊆ r.fields.map (·.key)
  fields : List.Forall₂ Field.Carries r.fields carries
  /-- Nothing of a record is left out. -/
  complete : ∀ s, carries.foldl (fun t carry => carry s t) r.blank = s

variable {r : Record σ}

theorem whole_of_mem {fields : List (Field σ)} {carries : List (σ → σ → σ)}
    (h : List.Forall₂ Field.Carries fields carries) {field : Field σ} (hfield : field ∈ fields)
    (s : σ) : (field.write s).Whole := by
  induction h with
  | nil => cases hfield
  | cons hcarry _ ih =>
    rcases List.mem_cons.mp hfield with rfl | hfield
    · exact hcarry.whole s
    · exact ih hfield

theorem member_eq {before after : List (Field σ)} {field : Field σ} {carry : σ → σ → σ}
    (hfields : r.fields = before ++ field :: after) (hkey : field.key ∉ before.map (·.key))
    (hcarry : field.Carries carry) (s t : σ) :
    r.member (t, (before.map (·.key)).reverse) (field.key, field.write s) =
      .ok (carry s t, ((before ++ [field]).map (·.key)).reverse) := by
  have hbefore : before.find? (·.key == field.key) = none := by
    refine List.find?_eq_none.mpr fun q hq heq => hkey ?_
    exact List.mem_map.mpr ⟨q, hq, beq_iff_eq.mp heq⟩
  have hfield : r.field? field.key = some field := by
    rw [field?, hfields, List.find?_append, hbefore, Option.none_or]
    exact List.find?_cons_of_pos (beq_self_eq_true field.key)
  have hseen : (before.map (·.key)).reverse.contains field.key = false := by
    simpa using hkey
  simp only [member, hfield, hseen, hcarry.read_write, bind, Except.bind, pure, Except.pure]
  simp

/-- Members are read as the fields that they were written from, one after another. -/
theorem foldlM_member (hnodup : (r.fields.map (·.key)).Nodup) {before after : List (Field σ)}
    (hfields : r.fields = before ++ after) {carries : List (σ → σ → σ)}
    (hcarries : List.Forall₂ Field.Carries after carries) (s t : σ) :
    (after.map fun field => (field.key, field.write s)).foldlM r.member
        (t, (before.map (·.key)).reverse) =
      .ok (carries.foldl (fun t carry => carry s t) t, (r.fields.map (·.key)).reverse) := by
  induction hcarries generalizing before t with
  | nil =>
    rw [hfields, List.append_nil]
    rfl
  | @cons field carry after carries hcarry _ ih =>
    have hkey : field.key ∉ before.map (·.key) := by
      rw [hfields, List.map_append, List.map_cons] at hnodup
      exact fun hmem => (List.nodup_append.mp hnodup).2.2 _ hmem _ List.mem_cons_self rfl
    rw [List.map_cons, List.foldlM_cons, member_eq hfields hkey hcarry]
    exact ih (by rw [hfields, List.append_assoc]; rfl) _

theorem Lawful.shape_lawful {carries : List (σ → σ → σ)} (h : r.Lawful carries) :
    r.shape.Lawful := by
  constructor
  · intro s
    have hmembers :=
      foldlM_member h.nodup (List.nil_append r.fields).symm h.fields s r.blank
    have hrequired : r.required.all (r.fields.map (·.key)).reverse.contains = true := by
      refine List.all_eq_true.mpr fun key hkey => ?_
      exact List.contains_iff_mem.mpr (List.mem_reverse.mpr (h.required hkey))
    rw [h.complete] at hmembers
    exact bind_eq_ok_iff.mpr ⟨_, hmembers, if_pos hrequired⟩
  · intro s
    refine .object fun m hm => ?_
    obtain ⟨field, hfield, rfl⟩ := List.mem_map.mp hm
    exact whole_of_mem h.fields hfield s

end Record
end MqttGateway.Json
