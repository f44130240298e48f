import MqttGateway.Proofs.Topic.Levels
import MqttGateway.Topic.Scope
/-!
# The levels of a scope

A placeholder holds no slash, so a template is filled in level by level, and the root of a scope is
whole levels: what is moved into the scope has the levels of the root in front of its own.
-/
namespace MqttGateway

/-! ## Substitution -/

section Substitute

variable {placeholder value a b : List Char}

theorem isPrefix_of_append_cons {c : Char} (hc : c ∉ placeholder)
    (h : placeholder <+: a ++ c :: b) : placeholder <+: a := by
  -- a longer placeholder would reach over the character
  by_cases hlength : placeholder.length ≤ a.length
  · exact List.prefix_of_prefix_length_le h (List.prefix_append ..) hlength
  · have hlong : a ++ [c] <+: placeholder := by
      refine List.prefix_of_prefix_length_le ⟨b, by simp⟩ h ?_
      rw [List.length_append, List.length_singleton]
      omega
    exact absurd (hlong.subset (List.mem_append_right _ List.mem_cons_self)) hc

/-- What stands in front of a slash and what stands behind it are dealt with separately. -/
theorem substitute_append_slash (hne : placeholder ≠ []) (hslash : '/' ∉ placeholder)
    (value a b : List Char) : substitute placeholder value (a ++ '/' :: b) =
      substitute placeholder value a ++ '/' :: substitute placeholder value b := by
  fun_induction substitute placeholder value a with
  | case1 =>
    have hno : placeholder.isPrefixOf ('/' :: b) = false := by
      cases placeholder with
      | nil => exact absurd rfl hne
      | cons p rest =>
        rw [List.isPrefixOf_cons_cons, beq_false_of_ne, Bool.false_and]
        exact fun h => hslash (h ▸ List.mem_cons_self)
    rw [List.nil_append, substitute, hno]
    rfl
  | case2 c cs h ih =>
    have hstart := List.isPrefixOf_iff_prefix.mp h
    have hlength := hstart.length_le
    have hlater : placeholder.isPrefixOf (c :: (cs ++ '/' :: b)) = true :=
      List.isPrefixOf_iff_prefix.mpr (hstart.trans (List.prefix_append ..))
    have hdrop : (cs ++ '/' :: b).drop (placeholder.length - 1) =
        cs.drop (placeholder.length - 1) ++ '/' :: b := by
      rw [List.drop_append_of_le_length]
      rw [List.length_cons] at hlength
      omega
    rw [List.cons_append, substitute, if_pos hlater, hdrop, ih, List.append_assoc]
  | case3 c cs h ih =>
    have hno : ¬ placeholder.isPrefixOf (c :: (cs ++ '/' :: b)) = true := fun hlater =>
      h (List.isPrefixOf_iff_prefix.mpr
        (isPrefix_of_append_cons hslash (List.isPrefixOf_iff_prefix.mp hlater)))
    rw [List.cons_append, substitute, if_neg hno, ih, List.cons_append]

theorem substitute_join (hne : placeholder ≠ []) (hslash : '/' ∉ placeholder) (value : List Char)
    (ls : List Topic.Level) : substitute placeholder value (Topic.join ls) =
      Topic.join (ls.map (substitute placeholder value)) := by
  induction ls with
  | nil => simp [Topic.join, substitute]
  | cons level ls ih =>
    cases ls with
    | nil => simp [Topic.join]
    | cons next ls =>
      rw [Topic.join_cons_cons, substitute_append_slash hne hslash, ih, List.map_cons,
        List.map_cons, List.map_cons, Topic.join_cons_cons]

theorem substitute_self (hne : placeholder ≠ []) :
    substitute placeholder value placeholder = value := by
  cases placeholder with
  | nil => exact absurd rfl hne
  | cons p rest =>
    have hself : (p :: rest).isPrefixOf (p :: rest) = true :=
      List.isPrefixOf_iff_prefix.mpr (List.prefix_refl _)
    rw [substitute, if_pos hself, List.length_cons, Nat.add_sub_cancel, List.drop_length]
    simp [substitute]

theorem substitute_of_not_infix (h : ¬ placeholder <:+: a) :
    substitute placeholder value a = a := by
  induction a with
  | nil => simp [substitute]
  | cons c cs ih =>
    have hno : ¬ placeholder.isPrefixOf (c :: cs) = true := fun hstart =>
      h (List.isPrefixOf_iff_prefix.mp hstart).isInfix
    rw [substitute, if_neg hno, ih fun hinside => h (hinside.trans (List.suffix_cons c cs).isInfix)]

end Substitute

theorem remainder?_eq_some_iff {start text rest : List Char} :
    remainder? start text = some rest ↔ text = start ++ rest := by
  induction start generalizing text with
  | nil => simp [remainder?, eq_comm]
  | cons c start ih =>
    cases text with
    | nil => simp [remainder?]
    | cons d text =>
      by_cases hcd : c = d
      · simp [remainder?, hcd, ih]
      · simp [remainder?, hcd, Ne.symm hcd]

namespace Scope

variable (scope : Scope) (username clientId : String)

/-! ## Templates -/

theorem userPlaceholder_ne_nil : userPlaceholder ≠ [] := by decide +kernel

theorem clientPlaceholder_ne_nil : clientPlaceholder ≠ [] := by decide +kernel

theorem slash_notMem_userPlaceholder : '/' ∉ userPlaceholder := by decide +kernel

theorem slash_notMem_clientPlaceholder : '/' ∉ clientPlaceholder := by decide +kernel

def fillText (text : List Char) : List Char :=
  substitute clientPlaceholder clientId.toList (substitute userPlaceholder username.toList text)

theorem fill_eq_join : scope.fill username clientId =
    Topic.join ((Topic.levels scope.template).map (fillText username clientId)) := by
  rw [fill, ← Topic.join_levels scope.template,
    substitute_join userPlaceholder_ne_nil slash_notMem_userPlaceholder,
    substitute_join clientPlaceholder_ne_nil slash_notMem_clientPlaceholder, List.map_map]
  rfl

/-! ## Roots -/

def rootLevels : List Topic.Level :=
  ((scope.root username clientId).splitOn '/').dropLast

theorem root_cases : scope.root username clientId = [] ∨
    ∃ init, scope.root username clientId = init ++ ['/'] := by
  unfold root
  dsimp only
  split
  case isTrue h =>
    rcases Bool.or_eq_true_iff.mp h with hnil | hlast
    · exact .inl (List.isEmpty_iff.mp hnil)
    · exact .inr (List.getLast?_eq_some_iff.mp (eq_of_beq hlast))
  case isFalse => exact .inr ⟨_, rfl⟩

/-- What is put behind the root has its own levels behind those of the root. -/
theorem splitOn_root_append (text : List Char) :
    (scope.root username clientId ++ text).splitOn '/' =
      scope.rootLevels username clientId ++ text.splitOn '/' := by
  rcases scope.root_cases username clientId with hroot | ⟨init, hroot⟩
  · rw [rootLevels, hroot, List.nil_append, List.splitOn_nil]
    rfl
  · rw [rootLevels, hroot, List.append_assoc, List.singleton_append,
      List.splitOn_append_cons_self, List.splitOn_append_cons_self, List.splitOn_nil,
      List.dropLast_concat]

/-- The filled template has the levels of the root, and behind a last slash an empty one. -/
theorem splitOn_fill :
    (scope.fill username clientId).splitOn '/' = scope.rootLevels username clientId ∨
    (scope.fill username clientId).splitOn '/' = scope.rootLevels username clientId ++ [[]] := by
  have hroot := scope.splitOn_root_append username clientId []
  rw [List.append_nil, List.splitOn_nil] at hroot
  rw [← hroot]
  unfold root at hroot ⊢
  dsimp only at hroot ⊢
  split
  case isTrue => exact .inr rfl
  case isFalse h =>
    rw [if_neg h, List.splitOn_append_cons_self, List.splitOn_nil] at hroot
    exact .inl (List.append_cancel_right hroot)

/-- A level of the template is a level of the root if no slash is filled in and the level is not
empty. -/
theorem getElem?_rootLevels {k : Nat} {level : Topic.Level}
    (hslash : ∀ level ∈ Topic.levels scope.template, '/' ∉ fillText username clientId level)
    (hlevel : (Topic.levels scope.template)[k]? = some level)
    (hne : fillText username clientId level ≠ []) :
    (scope.rootLevels username clientId)[k]? = some (fillText username clientId level) := by
  have hfill : (scope.fill username clientId).splitOn '/' =
      (Topic.levels scope.template).map (fillText username clientId) := by
    rw [fill_eq_join]
    refine List.splitOn_intercalate '/' ?_ fun hnil => ?_
    · simpa using hslash
    · exact List.splitOn_ne_nil '/' _ (List.map_eq_nil_iff.mp hnil)
  have hfilled : ((scope.fill username clientId).splitOn '/')[k]? =
      some (fillText username clientId level) := by
    rw [hfill, List.getElem?_map, hlevel]
    rfl
  rcases scope.splitOn_fill username clientId with hsplit | hsplit
  · rwa [hsplit] at hfilled
  · rw [hsplit, List.getElem?_append] at hfilled
    split at hfilled
    case isTrue => exact hfilled
    case isFalse =>
      have hmem := List.mem_of_getElem? hfilled
      exact absurd (List.mem_singleton.mp hmem) hne

theorem strip?_eq_some_iff {topic inner : String} :
    scope.strip? topic username clientId = some inner ↔
      topic = scope.apply inner username clientId := by
  rw [strip?, Option.map_eq_some_iff]
  constructor
  · rintro ⟨rest, hrest, rfl⟩
    rw [apply, String.toList_ofList, ← remainder?_eq_some_iff.mp hrest, String.ofList_toList]
  · rintro rfl
    exact ⟨inner.toList, remainder?_eq_some_iff.mpr (String.toList_ofList ..),
      String.ofList_toList⟩

theorem strip?_eq_none_iff {topic : String} : scope.strip? topic username clientId = none ↔
    ∀ inner, topic ≠ scope.apply inner username clientId := by
  simp only [Option.eq_none_iff_forall_ne_some, ne_eq, strip?_eq_some_iff]

theorem slash_notMem_of_mem_rootLevels {level : Topic.Level}
    (h : level ∈ scope.rootLevels username clientId) : '/' ∉ level :=
  Topic.slash_notMem_of_mem_splitOn (List.dropLast_subset _ h)

end Scope
end MqttGateway
