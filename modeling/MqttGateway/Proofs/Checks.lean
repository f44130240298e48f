import Mathlib.Data.List.Forall2
/-!
# Checks in order

What steps that may fail come to when none of them does. Each is told by the steps it is made of.
-/
namespace MqttGateway

variable {ε ε' α β : Type}

theorem bind_eq_ok_iff {x : Except ε α} {next : α → Except ε β} {b : β} :
    x >>= next = .ok b ↔ ∃ a, x = .ok a ∧ next a = .ok b := by
  cases x with
  | error e => exact ⟨nofun, fun ⟨_, h, _⟩ => nomatch h⟩
  | ok a =>
    constructor
    · exact fun h => ⟨a, rfl, h⟩
    · rintro ⟨_, ⟨⟩, h⟩
      exact h

theorem bind_eq_error_iff {x : Except ε α} {next : α → Except ε β} {e : ε} :
    x >>= next = .error e ↔ x = .error e ∨ ∃ a, x = .ok a ∧ next a = .error e := by
  cases x with
  | error e' =>
    constructor
    · rintro ⟨⟩
      exact .inl rfl
    · rintro (⟨⟨⟩⟩ | ⟨_, ⟨⟩, _⟩)
      rfl
  | ok a =>
    constructor
    · exact fun h => .inr ⟨a, rfl, h⟩
    · rintro (⟨⟨⟩⟩ | ⟨_, ⟨⟩, h⟩)
      exact h

/-- After a check that passes comes what follows it. -/
theorem check_bind_eq_ok_iff {x : Except ε Unit} {next : Unit → Except ε β} {b : β} :
    x >>= next = .ok b ↔ x = .ok () ∧ next () = .ok b := by
  rw [bind_eq_ok_iff]
  exact ⟨fun ⟨_, h⟩ => h, fun h => ⟨(), h⟩⟩

theorem pure_eq_ok_iff {a b : α} : (pure a : Except ε α) = .ok b ↔ a = b := by
  constructor
  · rintro ⟨⟩
    rfl
  · rintro rfl
    rfl

section Reading

variable {σ : Type} {item : StateT σ (Except ε) α} {next : α → StateT σ (Except ε) β}
  {before after : σ} {a c : α} {b : β}

/-- What two steps read is what the second makes of all that the first leaves. -/
theorem reads_bind_iff : (item >>= next) before = .ok (b, after) ↔
    ∃ a mid, item before = .ok (a, mid) ∧ next a mid = .ok (b, after) := by
  have hbind : (item >>= next) before = (item before >>= fun found => next found.1 found.2) := rfl
  rw [hbind, bind_eq_ok_iff]
  exact Prod.exists

@[simp] theorem reads_pure_iff :
    (pure a : StateT σ (Except ε) α) before = .ok (c, after) ↔ a = c ∧ before = after := by
  have hpure : (pure a : StateT σ (Except ε) α) before = pure (a, before) := rfl
  rw [hpure, pure_eq_ok_iff, Prod.mk.injEq]

end Reading

theorem isOk_iff {x : Except ε Unit} : x.isOk = true ↔ x = .ok () := by
  cases x with
  | error e => exact ⟨nofun, nofun⟩
  | ok u => exact ⟨fun _ => rfl, fun _ => rfl⟩

theorem mapError_eq_ok_iff {x : Except ε α} {f : ε → ε'} {a : α} :
    x.mapError f = .ok a ↔ x = .ok a := by
  cases x with
  | error e => exact ⟨nofun, nofun⟩
  | ok b =>
    constructor
    · rintro ⟨⟩
      rfl
    · rintro ⟨⟩
      rfl

theorem mapError_eq_error_iff {x : Except ε α} {f : ε → ε'} {e' : ε'} :
    x.mapError f = .error e' ↔ ∃ e, x = .error e ∧ f e = e' := by
  cases x with
  | error e =>
    constructor
    · rintro ⟨⟩
      exact ⟨e, rfl, rfl⟩
    · rintro ⟨_, ⟨⟩, rfl⟩
      rfl
  | ok a => exact ⟨nofun, fun ⟨_, h, _⟩ => nomatch h⟩

theorem map_eq_ok_iff {x : Except ε α} {f : α → β} {b : β} :
    x.map f = .ok b ↔ ∃ a, x = .ok a ∧ f a = b := by
  cases x with
  | error e => exact ⟨nofun, fun ⟨_, h, _⟩ => nomatch h⟩
  | ok a =>
    constructor
    · rintro ⟨⟩
      exact ⟨a, rfl, rfl⟩
    · rintro ⟨_, ⟨⟩, rfl⟩
      rfl

theorem bind_pure_eq_map_map {γ : Type} (x : Except ε α) (f : α → β) (g : β → γ) :
    (x >>= fun a => pure (g (f a))) = (x.map f).map g := by
  cases x <;> rfl

theorem forM_eq_ok_iff {check : α → Except ε Unit} {as : List α} :
    as.forM check = .ok () ↔ ∀ a ∈ as, check a = .ok () := by
  induction as with
  | nil => exact ⟨fun _ _ => nofun, fun _ => rfl⟩
  | cons a as ih =>
    show (check a >>= fun _ => as.forM check) = .ok () ↔ _
    rw [check_bind_eq_ok_iff, ih, List.forall_mem_cons]

theorem mapM_eq_ok_iff {read : α → Except ε β} {as : List α} {bs : List β} :
    as.mapM read = .ok bs ↔ List.Forall₂ (fun a b => read a = .ok b) as bs := by
  induction as generalizing bs with
  | nil =>
    rw [List.mapM_nil, pure_eq_ok_iff, List.forall₂_nil_left_iff, eq_comm]
  | cons a as ih =>
    rw [List.mapM_cons, bind_eq_ok_iff, List.forall₂_cons_left_iff]
    constructor
    · rintro ⟨b, hread, hrest⟩
      obtain ⟨bs, hbs, hpure⟩ := bind_eq_ok_iff.mp hrest
      exact ⟨b, bs, hread, ih.mp hbs, (pure_eq_ok_iff.mp hpure).symm⟩
    · rintro ⟨b, bs, hread, hrest, rfl⟩
      exact ⟨b, hread, bind_eq_ok_iff.mpr ⟨bs, ih.mpr hrest, rfl⟩⟩

theorem exists_mapM_eq_ok {read : α → Except ε β} {as : List α}
    (h : ∀ a ∈ as, ∃ b, read a = .ok b) : ∃ bs, as.mapM read = .ok bs := by
  simp only [mapM_eq_ok_iff]
  induction as with
  | nil => exact ⟨[], .nil⟩
  | cons a as ih =>
    obtain ⟨hread, hrest⟩ := List.forall_mem_cons.mp h
    obtain ⟨b, hb⟩ := hread
    obtain ⟨bs, hbs⟩ := ih hrest
    exact ⟨b :: bs, .cons hb hbs⟩

theorem forall_of_mapM_eq_ok {read : α → Except ε β} {as : List α} {bs : List β}
    (h : as.mapM read = .ok bs) : ∀ a ∈ as, ∃ b, read a = .ok b := by
  replace h := mapM_eq_ok_iff.mp h
  induction h with
  | nil => exact fun _ => nofun
  | cons hread _ ih => exact List.forall_mem_cons.mpr ⟨⟨_, hread⟩, ih⟩

theorem exists_of_mem_mapM {read : α → Except ε β} {as : List α} {bs : List β}
    (h : as.mapM read = .ok bs) : ∀ b ∈ bs, ∃ a ∈ as, read a = .ok b := by
  replace h := mapM_eq_ok_iff.mp h
  induction h with
  | nil => exact fun _ => nofun
  | @cons a _ _ _ hread _ ih =>
    refine List.forall_mem_cons.mpr ⟨⟨a, List.mem_cons_self, hread⟩, fun b hb => ?_⟩
    obtain ⟨c, hc, hcb⟩ := ih b hb
    exact ⟨c, List.mem_cons_of_mem a hc, hcb⟩

/-- Reading fails with the fault of the first that cannot be read. -/
theorem mapM_eq_error_iff {read : α → Except ε β} {as : List α} {e : ε} :
    as.mapM read = .error e ↔ ∃ before a after, as = before ++ a :: after ∧
      (∀ a ∈ before, ∃ b, read a = .ok b) ∧ read a = .error e := by
  induction as with
  | nil => exact ⟨nofun, fun ⟨before, _, _, h, _⟩ => nomatch (List.append_eq_nil_iff.mp h.symm).2⟩
  | cons a as ih =>
    rw [List.mapM_cons, bind_eq_error_iff]
    constructor
    · rintro (hread | ⟨b, hread, h⟩)
      · exact ⟨[], a, as, rfl, fun _ => nofun, hread⟩
      · obtain hrest | ⟨_, _, ⟨⟩⟩ := bind_eq_error_iff.mp h
        obtain ⟨before, c, after, rfl, hbefore, hc⟩ := ih.mp hrest
        exact ⟨a :: before, c, after, rfl, List.forall_mem_cons.mpr ⟨⟨b, hread⟩, hbefore⟩, hc⟩
    · rintro ⟨before, c, after, hsplit, hbefore, hc⟩
      cases before with
      | nil =>
        obtain ⟨rfl, rfl⟩ := List.cons.inj hsplit
        exact .inl hc
      | cons d before =>
        obtain ⟨rfl, rfl⟩ := List.cons.inj hsplit
        obtain ⟨⟨b, hread⟩, hbefore⟩ := List.forall_mem_cons.mp hbefore
        have hrest := ih.mpr ⟨before, c, after, rfl, hbefore, hc⟩
        exact .inr ⟨b, hread, bind_eq_error_iff.mpr (.inl hrest)⟩

/-- How the faults are told makes no difference to what is read. -/
theorem mapM_mapError_eq_ok_iff {read : α → Except ε β} {f : ε → ε'} {as : List α} {bs : List β} :
    (as.mapM fun a => (read a).mapError f) = .ok bs ↔ as.mapM read = .ok bs := by
  simp only [mapM_eq_ok_iff, mapError_eq_ok_iff]

end MqttGateway
