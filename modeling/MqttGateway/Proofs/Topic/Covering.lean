import MqttGateway.Proofs.Topic.Levels
/-!
# What a filter covers, place by place

Matching goes through a filter and a topic side by side. Main statement: a filter without the level
`#` covers the topics with as many levels as it has that agree with it at each place. One with a `#`
covers something only if that is its last level and its only one; then it covers the topics that
have at least the levels in front of it and agree with them.
-/
namespace MqttGateway.Topic

def Agrees (filter names : List Level) : Prop :=
  ∀ (k : Nat) (level : Level), filter[k]? = some level → level = ['+'] ∨ names[k]? = some level

theorem agrees_nil (names : List Level) : Agrees [] names := by
  intro k level hlevel
  rw [List.getElem?_nil] at hlevel
  cases hlevel

theorem agrees_cons_cons {level name : Level} {filter names : List Level} :
    Agrees (level :: filter) (name :: names) ↔
      (level = ['+'] ∨ level = name) ∧ Agrees filter names := by
  constructor
  · intro h
    refine ⟨(h 0 level rfl).imp_right fun hname => (Option.some.inj hname).symm, ?_⟩
    exact fun k => h (k + 1)
  · rintro ⟨hfirst, hrest⟩ k own hown
    cases k with
    | zero =>
      obtain rfl : level = own := Option.some.inj hown
      exact hfirst.imp_right fun hname => congrArg some hname.symm
    | succ k => exact hrest k own hown

/-- What stands in front of a `#` is matched place by place, and the rest of the filter against the
names behind. -/
theorem covers_append_iff {first rest names : List Level} (hhash : ['#'] ∉ first) :
    covers (first ++ rest) names = true ↔ Agrees first names ∧ first.length ≤ names.length ∧
      covers rest (names.drop first.length) = true := by
  induction first generalizing names with
  | nil => simp [agrees_nil]
  | cons level first ih =>
    obtain ⟨hlevel, hhash⟩ := List.ne_and_not_mem_of_not_mem_cons hhash
    cases names with
    | nil => simp [covers_cons_nil (Ne.symm hlevel)]
    | cons name names =>
      rw [List.cons_append, covers_cons_cons (Ne.symm hlevel), Bool.and_eq_true, Bool.or_eq_true,
        beq_iff_eq, beq_iff_eq, ih hhash, agrees_cons_cons, List.length_cons, List.length_cons,
        Nat.add_le_add_iff_right, List.drop_succ_cons, and_assoc]

theorem covers_iff_of_hash_notMem {filter names : List Level} (hhash : ['#'] ∉ filter) :
    covers filter names = true ↔ Agrees filter names ∧ names.length = filter.length := by
  rw [← List.append_nil filter, covers_append_iff hhash, covers, List.isEmpty_iff,
    List.drop_eq_nil_iff, ← Nat.le_antisymm_iff, List.append_nil, eq_comm]

theorem covers_append_hash_cons_iff {first rest names : List Level} (hhash : ['#'] ∉ first) :
    covers (first ++ ['#'] :: rest) names = true ↔
      (Agrees first names ∧ first.length ≤ names.length) ∧ rest = [] := by
  rw [covers_append_iff hhash, covers_hash, List.isEmpty_iff, and_assoc]

theorem covers_eq_false_of_hash_inside {before after names : List Level} (hafter : after ≠ []) :
    covers (before ++ ['#'] :: after) names = false := by
  induction before generalizing names with
  | nil => rw [List.nil_append, covers_hash, List.isEmpty_eq_false_iff.mpr hafter]
  | cons level before ih =>
    by_cases hlevel : level = ['#']
    · have hrest : before ++ ['#'] :: after ≠ [] :=
        List.append_ne_nil_of_right_ne_nil _ (List.cons_ne_nil _ _)
      rw [List.cons_append, hlevel, covers_hash, List.isEmpty_eq_false_iff.mpr hrest]
    · cases names with
      | nil => exact covers_cons_nil hlevel
      | cons name names => rw [List.cons_append, covers_cons_cons hlevel, ih, Bool.and_false]

/-- A filter covers a topic exactly if their levels agree: all of them if none of the filter's is
`#`, those in front of it if it is the last and the only one. -/
theorem isCovered_iff_levels_agree (topic filter : String) :
    (isCovered topic filter = true ↔
      (['#'] ∉ levels filter ∧ Agrees (levels filter) (levels topic) ∧
        (levels topic).length = (levels filter).length) ∨
      ∃ first, levels filter = first ++ [['#']] ∧ ['#'] ∉ first ∧
        Agrees first (levels topic) ∧ first.length ≤ (levels topic).length) ∧
    ∀ before after, levels filter = before ++ ['#'] :: after → after ≠ [] →
      isCovered topic filter = false := by
  rw [isCovered]
  refine ⟨⟨fun h => ?_, ?_⟩, fun before after hlevels hafter => ?_⟩
  · by_cases hhash : ['#'] ∈ levels filter
    · obtain ⟨first, rest, hlevels, hfirst⟩ := List.eq_append_cons_of_mem hhash
      rw [hlevels, covers_append_hash_cons_iff hfirst] at h
      obtain ⟨hagrees, rfl⟩ := h
      exact .inr ⟨first, hlevels, hfirst, hagrees⟩
    · exact .inl ⟨hhash, (covers_iff_of_hash_notMem hhash).mp h⟩
  · rintro (⟨hhash, hagrees⟩ | ⟨first, hlevels, hfirst, hagrees⟩)
    · exact (covers_iff_of_hash_notMem hhash).mpr hagrees
    · rw [hlevels]
      exact (covers_append_hash_cons_iff hfirst).mpr ⟨hagrees, rfl⟩
  · rw [hlevels]
    exact covers_eq_false_of_hash_inside hafter

example : isCovered "" "+" = true ∧ isCovered "a" "a/#" = true ∧ isCovered "a/" "a/+" = true ∧
    isCovered "a" "a#" = false ∧ isCovered "a/b" "#/b" = false := by
  decide +kernel

end MqttGateway.Topic
