import MqttGateway.Proofs.Topic.Levels
/-!
# What one filter covers and others cover as well

Matching was made for names, and `#` stands for no level at all or for several, so a filter may be
covered by another that does not cover all it covers. Main statement: nothing that a filter covers
escapes some others exactly if these cover each filter in which its `#` is written out.
-/
namespace MqttGateway.Topic

def Within (filter : String) (patterns : List String) : Prop :=
  ∀ topic, isCovered topic filter = true → ∃ p ∈ patterns, isCovered topic p = true

def WritesOut (narrowed filter : String) : Prop :=
  (['#'] ∉ levels filter ∧ narrowed = filter) ∨
    ∃ first n, levels filter = first ++ [['#']] ∧ levels narrowed = first ++ List.replicate n ['+']

/-- The pattern has a `+` where the filter has its `#`. Only behind no level at all is that
harmless, and only if everything else is covered as well. -/
def Overreaches (filter pattern : String) : Prop :=
  ∃ first, levels filter = first ++ [['#']] ∧ (levels pattern)[first.length]? = some ['+'] ∧
    ¬ (first = [] ∧ levels pattern = [['+'], ['#']])

theorem levels_ne_nil (text : String) : levels text ≠ [] :=
  List.splitOn_ne_nil '/' _

theorem slash_notMem_of_mem_levels {text : String} {level : Level} (h : level ∈ levels text) :
    '/' ∉ level :=
  slash_notMem_of_mem_splitOn h

/-! ## Levels of a filter -/

def isSingle (level : Level) : Bool :=
  level == ['+'] || isPlain level

theorem isSingle_plus : isSingle ['+'] = true :=
  rfl

theorem hash_notMem {ls : List Level} (h : ∀ level ∈ ls, isSingle level = true) : ['#'] ∉ ls :=
  fun hmem => absurd (h _ hmem) (by decide)

theorem forall_mem_append_plus {P : Level → Prop} {first : List Level}
    (hfirst : ∀ level ∈ first, P level) (hplus : P ['+']) (n : Nat) :
    ∀ level ∈ first ++ List.replicate n ['+'], P level := by
  intro level hlevel
  rcases List.mem_append.mp hlevel with hlevel | hlevel
  · exact hfirst level hlevel
  · rw [List.eq_of_mem_replicate hlevel]
    exact hplus

theorem wellFormed_cases {ls : List Level} (h : wellFormed ls = true) :
    (∀ level ∈ ls, isSingle level = true) ∨
      ∃ first, ls = first ++ [['#']] ∧ ∀ level ∈ first, isSingle level = true := by
  induction ls with
  | nil => exact .inl fun level hlevel => absurd hlevel List.not_mem_nil
  | cons level rest ih =>
    simp only [wellFormed, Bool.and_eq_true, Bool.or_eq_true, Bool.not_eq_true', beq_iff_eq] at h
    obtain ⟨⟨⟨hne, hhash⟩, hplus⟩, hrest⟩ := h
    rcases hhash with hhash | ⟨rfl, hlast⟩
    · have hlevel : isSingle level = true := by
        rcases hplus with hplus | rfl
        · rw [isSingle, isPlain, hne, hplus, hhash]
          exact Bool.or_true _
        · exact isSingle_plus
      rcases ih hrest with hall | ⟨first, rfl, hfirst⟩
      · exact .inl (List.forall_mem_cons.mpr ⟨hlevel, hall⟩)
      · exact .inr ⟨level :: first, rfl, List.forall_mem_cons.mpr ⟨hlevel, hfirst⟩⟩
    · rw [List.isEmpty_iff.mp hlast]
      exact .inr ⟨[], rfl, fun level hlevel => absurd hlevel List.not_mem_nil⟩

/-! ## Covering a filter -/

theorem covers_of_covers {pattern filter names : List Level} (hhash : ['#'] ∉ filter)
    (hpattern : covers pattern filter = true) (hfilter : covers filter names = true) :
    covers pattern names = true := by
  induction pattern generalizing filter names with
  | nil =>
    rw [covers, List.isEmpty_iff] at hpattern
    rwa [hpattern] at hfilter
  | cons level pattern ih =>
    by_cases hwild : level = ['#']
    · rw [hwild, covers_hash] at hpattern ⊢
      exact hpattern
    · cases filter with
      | nil =>
        rw [covers_cons_nil hwild] at hpattern
        cases hpattern
      | cons single filter =>
        obtain ⟨hsingle, hhash⟩ := List.ne_and_not_mem_of_not_mem_cons hhash
        cases names with
        | nil =>
          rw [covers_cons_nil (Ne.symm hsingle)] at hfilter
          cases hfilter
        | cons name names =>
          rw [covers_cons_cons hwild, Bool.and_eq_true, Bool.or_eq_true, beq_iff_eq,
            beq_iff_eq] at hpattern
          rw [covers_cons_cons (Ne.symm hsingle), Bool.and_eq_true, Bool.or_eq_true, beq_iff_eq,
            beq_iff_eq] at hfilter
          rw [covers_cons_cons hwild, ih hhash hpattern.2 hfilter.2, Bool.and_true,
            Bool.or_eq_true, beq_iff_eq, beq_iff_eq]
          rcases hpattern.1 with hplus | rfl
          · exact .inl hplus
          · exact hfilter.1

theorem covers_replicate (names : List Level) :
    covers (List.replicate names.length ['+']) names = true := by
  induction names with
  | nil => rfl
  | cons name names ih =>
    rw [List.length_cons, List.replicate_succ, covers_cons_cons (by decide), ih]
    rfl

/-- A last `#` stands for some number of levels. -/
theorem covers_append_hash {first names : List Level} (hhash : ['#'] ∉ first) :
    covers (first ++ [['#']]) names = true ↔
      ∃ n, covers (first ++ List.replicate n ['+']) names = true := by
  induction first generalizing names with
  | nil =>
    refine ⟨fun _ => ⟨names.length, covers_replicate names⟩, fun _ => ?_⟩
    rw [List.nil_append, covers_hash]
    rfl
  | cons level first ih =>
    obtain ⟨hlevel, hhash⟩ := List.ne_and_not_mem_of_not_mem_cons hhash
    cases names with
    | nil => simp only [List.cons_append, covers_cons_nil (Ne.symm hlevel), Bool.false_eq_true,
        exists_false]
    | cons name names =>
      simp only [List.cons_append, covers_cons_cons (Ne.symm hlevel), Bool.and_eq_true, ih hhash,
        exists_and_left]

/-- What covers a filter by other than a `+` in place of its `#` covers everything behind. -/
theorem covers_append_of_ne_plus {pattern first : List Level}
    (hpattern : covers pattern (first ++ [['#']]) = true)
    (hplus : pattern[first.length]? ≠ some ['+']) (rest : List Level) :
    covers pattern (first ++ rest) = true := by
  induction first generalizing pattern with
  | nil =>
    cases pattern with
    | nil => cases hpattern
    | cons level pattern =>
      by_cases hwild : level = ['#']
      · rw [hwild, List.nil_append, covers_hash] at hpattern ⊢
        exact hpattern
      · rw [List.nil_append, covers_cons_cons hwild, beq_false_of_ne hwild, Bool.or_false,
          Bool.and_eq_true, beq_iff_eq] at hpattern
        exact absurd (congrArg some hpattern.1) hplus
  | cons name first ih =>
    cases pattern with
    | nil => cases hpattern
    | cons level pattern =>
      by_cases hwild : level = ['#']
      · rw [hwild, covers_hash] at hpattern ⊢
        exact hpattern
      · rw [List.cons_append, covers_cons_cons hwild, Bool.and_eq_true] at hpattern ⊢
        exact ⟨hpattern.1, ih hpattern.2 hplus⟩

/-- A filter that goes on behind the end of what it covers goes on with `#`. -/
theorem eq_hash_of_covers {pattern names : List Level} {level : Level}
    (h : covers pattern names = true) (hlevel : pattern[names.length]? = some level) :
    level = ['#'] := by
  induction pattern generalizing names with
  | nil => cases hlevel
  | cons own pattern ih =>
    by_cases hwild : own = ['#']
    · rw [hwild, covers_hash, List.isEmpty_iff] at h
      subst hwild h
      cases names with
      | nil => exact (Option.some.inj hlevel).symm
      | cons name names => cases hlevel
    · cases names with
      | nil =>
        rw [covers_cons_nil hwild] at h
        cases h
      | cons name names =>
        rw [covers_cons_cons hwild, Bool.and_eq_true] at h
        exact ih h.2 hlevel

/-! ## A name in place of a filter -/

theorem exists_fresh (ls : List Level) : ∃ x, x ∉ ls ∧ isPlain x = true ∧ '/' ∉ x := by
  refine ⟨List.replicate (ls.flatten.length + 1) 'x', fun hmem => ?_, ?_, ?_⟩
  · have hlength := (List.sublist_flatten_of_mem hmem).length_le
    rw [List.length_replicate] at hlength
    omega
  · simp [isPlain, List.replicate_succ]
  · simp [List.replicate_succ]

def fill (x level : Level) : Level :=
  if level = ['+'] then x else level

variable {x : Level} {filter : List Level}

theorem fill_isPlain (hx : isPlain x = true) {level : Level} (h : isSingle level = true) :
    isPlain (fill x level) = true := by
  unfold fill
  split
  case isTrue => exact hx
  case isFalse hplus => simpa [isSingle, hplus] using h

theorem slash_notMem_fill (hx : '/' ∉ x) {level : Level} (h : '/' ∉ level) :
    '/' ∉ fill x level := by
  unfold fill
  split
  · exact hx
  · exact h

/-- The levels of a filter with the name put in are those of a text. -/
theorem exists_levels_fill (hne : filter ≠ []) (hslash : ∀ level ∈ filter, '/' ∉ level)
    (hx : '/' ∉ x) : ∃ topic, levels topic = filter.map (fill x) := by
  refine ⟨_, levels_join (mt List.map_eq_nil_iff.mp hne) fun level hlevel => ?_⟩
  obtain ⟨own, hown, rfl⟩ := List.mem_map.mp hlevel
  exact slash_notMem_fill hx (hslash own hown)

theorem covers_fill (x : Level) (hhash : ['#'] ∉ filter) :
    covers filter (filter.map (fill x)) = true := by
  induction filter with
  | nil => rfl
  | cons level filter ih =>
    obtain ⟨hlevel, hhash⟩ := List.ne_and_not_mem_of_not_mem_cons hhash
    rw [List.map_cons, covers_cons_cons (Ne.symm hlevel), ih hhash, fill]
    split
    case isTrue hplus => simp [hplus]
    case isFalse => simp

theorem covers_of_covers_fill {pattern : List Level} (hx : x ∉ pattern)
    (h : covers pattern (filter.map (fill x)) = true) : covers pattern filter = true := by
  induction pattern generalizing filter with
  | nil =>
    rw [covers, List.isEmpty_iff, List.map_eq_nil_iff] at h
    rw [h]
    rfl
  | cons level pattern ih =>
    obtain ⟨hlevel, hx⟩ := List.ne_and_not_mem_of_not_mem_cons hx
    by_cases hwild : level = ['#']
    · rw [hwild, covers_hash] at h ⊢
      exact h
    · cases filter with
      | nil =>
        rw [List.map_nil, covers_cons_nil hwild] at h
        cases h
      | cons single filter =>
        rw [List.map_cons, covers_cons_cons hwild, Bool.and_eq_true, Bool.or_eq_true, beq_iff_eq,
          beq_iff_eq] at h
        rw [covers_cons_cons hwild, ih hx h.2, Bool.and_true, Bool.or_eq_true, beq_iff_eq,
          beq_iff_eq]
        rcases h.1 with hplus | hname
        · exact .inl hplus
        · unfold fill at hname
          split at hname
          -- a level of the pattern that is the name put in would not be new
          · exact absurd hname.symm hlevel
          · exact .inr hname

/-- Among all filters that do not cover a filter, one name that it covers escapes them all. -/
theorem exists_name_of_filter {narrowed : String} (patterns : List String)
    (hsingle : ∀ level ∈ levels narrowed, isSingle level = true) :
    ∃ topic, isName topic = true ∧ isCovered topic narrowed = true ∧
      ∀ pattern ∈ patterns, isCovered topic pattern = true → isCovered narrowed pattern = true := by
  obtain ⟨x, hfresh, hplain, hslash⟩ := exists_fresh (patterns.flatMap levels)
  obtain ⟨topic, hlevels⟩ := exists_levels_fill (levels_ne_nil narrowed)
    (fun _ => slash_notMem_of_mem_levels) hslash
  refine ⟨topic, isName_iff.mpr fun level hlevel => ?_, ?_, fun pattern hpattern h => ?_⟩
  · rw [hlevels] at hlevel
    obtain ⟨own, hown, rfl⟩ := List.mem_map.mp hlevel
    exact fill_isPlain hplain (hsingle own hown)
  · rw [isCovered, hlevels]
    exact covers_fill x (hash_notMem hsingle)
  · rw [isCovered, hlevels] at h
    exact covers_of_covers_fill
      (fun hx => hfresh (List.mem_flatMap.mpr ⟨pattern, hpattern, hx⟩)) h

/-! ## Inclusion -/

section Inclusion

variable {filter narrowed topic : String}

theorem WritesOut.isSingle (hfilter : isFilter filter = true) (h : WritesOut narrowed filter) :
    ∀ level ∈ levels narrowed, isSingle level = true := by
  rcases h with ⟨hhash, rfl⟩ | ⟨first, n, hlevels, hnarrowed⟩
  · rcases wellFormed_cases hfilter with hall | ⟨first, hlevels, -⟩
    · exact hall
    · rw [hlevels] at hhash
      exact absurd (List.mem_append_right _ List.mem_cons_self) hhash
  · have hfirst : ∀ level ∈ first, Topic.isSingle level = true := by
      rcases wellFormed_cases hfilter with hall | ⟨own, hown, hsingle⟩
      · exact fun level hlevel => hall level (hlevels ▸ List.mem_append_left _ hlevel)
      · rwa [List.append_cancel_right (hlevels.symm.trans hown)]
    rw [hnarrowed]
    exact forall_mem_append_plus hfirst isSingle_plus n

theorem WritesOut.covers (hfilter : isFilter filter = true) (h : WritesOut narrowed filter)
    (htopic : isCovered topic narrowed = true) : isCovered topic filter = true := by
  have hsingle := h.isSingle hfilter
  rcases h with ⟨-, rfl⟩ | ⟨first, n, hlevels, hnarrowed⟩
  · exact htopic
  · have hhash : ['#'] ∉ first := fun hmem =>
      hash_notMem hsingle (hnarrowed ▸ List.mem_append_left _ hmem)
    rw [isCovered, hnarrowed] at htopic
    rw [isCovered, hlevels]
    exact (covers_append_hash hhash).mpr ⟨n, htopic⟩

theorem exists_writesOut (hfilter : isFilter filter = true)
    (htopic : isCovered topic filter = true) :
    ∃ narrowed, WritesOut narrowed filter ∧ isCovered topic narrowed = true := by
  rcases wellFormed_cases hfilter with hall | ⟨first, hlevels, hsingle⟩
  · exact ⟨filter, .inl ⟨hash_notMem hall, rfl⟩, htopic⟩
  · rw [isCovered, hlevels] at htopic
    obtain ⟨n, hn⟩ := (covers_append_hash (hash_notMem hsingle)).mp htopic
    have hne : first ++ List.replicate n ['+'] ≠ [] := by
      intro hnil
      rw [hnil, Topic.covers, List.isEmpty_iff] at hn
      exact levels_ne_nil topic hn
    have hfirst : ∀ level ∈ first, '/' ∉ level := fun level hlevel =>
      slash_notMem_of_mem_levels (hlevels ▸ List.mem_append_left _ hlevel)
    have hnarrowed := levels_join hne (forall_mem_append_plus hfirst (by decide) n)
    refine ⟨_, .inr ⟨first, n, hlevels, hnarrowed⟩, ?_⟩
    rw [isCovered, hnarrowed]
    exact hn

theorem within_of_written {patterns : List String} (hfilter : isFilter filter = true)
    (h : ∀ narrowed, WritesOut narrowed filter → ∃ p ∈ patterns, isCovered narrowed p = true) :
    Within filter patterns := by
  intro topic htopic
  obtain ⟨narrowed, hwrites, hcovered⟩ := exists_writesOut hfilter htopic
  obtain ⟨p, hp, hnarrowed⟩ := h narrowed hwrites
  exact ⟨p, hp, covers_of_covers (hash_notMem (hwrites.isSingle hfilter)) hnarrowed hcovered⟩

theorem written_of_names {patterns : List String} (hfilter : isFilter filter = true)
    (h : ∀ topic, isName topic = true → isCovered topic filter = true →
      ∃ p ∈ patterns, isCovered topic p = true) (hwrites : WritesOut narrowed filter) :
    ∃ p ∈ patterns, isCovered narrowed p = true := by
  obtain ⟨topic, hname, hcovered, hback⟩ :=
    exists_name_of_filter patterns (hwrites.isSingle hfilter)
  obtain ⟨p, hp, htopic⟩ := h topic hname (hwrites.covers hfilter hcovered)
  exact ⟨p, hp, hback p hp htopic⟩

/-- Nothing that the filter covers escapes the patterns exactly if none of the filters does in which
its `#` is written out. -/
theorem within_iff_written (hfilter : isFilter filter = true) (patterns : List String) :
    Within filter patterns ↔
      ∀ narrowed, WritesOut narrowed filter → ∃ p ∈ patterns, isCovered narrowed p = true :=
  ⟨fun h _ => written_of_names hfilter fun topic _ => h topic, within_of_written hfilter⟩

/-- What escapes the patterns may be taken to be a name. -/
theorem within_iff_names (hfilter : isFilter filter = true) (patterns : List String) :
    Within filter patterns ↔ ∀ topic, isName topic = true → isCovered topic filter = true →
      ∃ p ∈ patterns, isCovered topic p = true :=
  ⟨fun h topic _ => h topic, fun h =>
    within_of_written hfilter fun _ => written_of_names hfilter h⟩

/-- Without a `#` a filter is within whatever covers it. -/
theorem within_of_hash_notMem {pattern : String} {patterns : List String}
    (hhash : ['#'] ∉ levels filter) (hpattern : pattern ∈ patterns)
    (hcovered : isCovered filter pattern = true) : Within filter patterns :=
  fun _ htopic => ⟨pattern, hpattern, covers_of_covers hhash hcovered htopic⟩

/-- A `+` in place of `#` leaves out the name without any level there, or behind no level at all the
names with more than one. -/
theorem exists_writesOut_of_overreaches {pattern : String}
    (hcovered : isCovered filter pattern = true) (h : Overreaches filter pattern) :
    ∃ narrowed, WritesOut narrowed filter ∧ isCovered narrowed pattern = false := by
  obtain ⟨first, hlevels, hplus, hexcept⟩ := h
  by_cases hfirst : first = []
  · -- the filter is `#` alone and the pattern `+`
    have hpattern : levels pattern = [['+']] := by
      rw [hfirst, List.nil_append] at hlevels
      rw [isCovered, hlevels] at hcovered
      cases hp : levels pattern with
      | nil => exact absurd hp (levels_ne_nil pattern)
      | cons level rest =>
        rw [hp, hfirst] at hplus
        obtain rfl : level = ['+'] := Option.some.inj hplus
        rw [hp, covers_cons_cons (by decide), Bool.and_eq_true] at hcovered
        cases rest with
        | nil => rfl
        | cons next rest =>
          have hnext : next = ['#'] := eq_hash_of_covers hcovered.2 rfl
          rw [hnext, covers_hash, List.isEmpty_iff] at hcovered
          rw [hp, hnext, hcovered.2] at hexcept
          exact absurd ⟨hfirst, rfl⟩ hexcept
    refine ⟨"+/+", .inr ⟨first, 2, hlevels, ?_⟩, ?_⟩
    · rw [hfirst]
      decide +kernel
    · rw [isCovered, hpattern]
      decide +kernel
  · have hslash : ∀ level ∈ first, '/' ∉ level := fun level hlevel =>
      slash_notMem_of_mem_levels (hlevels ▸ List.mem_append_left _ hlevel)
    have hnarrowed := levels_join hfirst hslash
    refine ⟨_, .inr ⟨first, 0, hlevels, by rw [hnarrowed]; exact (List.append_nil _).symm⟩, ?_⟩
    rw [isCovered, hnarrowed]
    refine Bool.eq_false_iff.mpr fun hcovers => ?_
    exact absurd (eq_hash_of_covers hcovers hplus) (by decide)

theorem isCovered_of_writesOut {pattern : String} (hcovered : isCovered filter pattern = true)
    (hreach : ¬ Overreaches filter pattern) (h : WritesOut narrowed filter) :
    isCovered narrowed pattern = true := by
  rcases h with ⟨-, rfl⟩ | ⟨first, n, hlevels, hnarrowed⟩
  · exact hcovered
  · rw [isCovered, hlevels] at hcovered
    rw [isCovered, hnarrowed]
    by_cases hplus : (levels pattern)[first.length]? = some ['+']
    · -- only `+/#` covers everything that `#` does
      obtain ⟨rfl, hpattern⟩ : first = [] ∧ levels pattern = [['+'], ['#']] :=
        Classical.not_not.mp fun hexcept => hreach ⟨first, hlevels, hplus, hexcept⟩
      rw [hpattern]
      cases n with
      | zero => exact absurd hnarrowed (levels_ne_nil narrowed)
      | succ n =>
        rw [List.nil_append, List.replicate_succ, covers_cons_cons (by decide), covers_hash]
        rfl
    · exact covers_append_of_ne_plus hcovered hplus _

/-- A filter stays within a pattern that covers it exactly if it does not overreach. -/
theorem covers_all_iff {pattern : String} (hfilter : isFilter filter = true)
    (hcovered : isCovered filter pattern = true) :
    (∀ topic, isCovered topic filter = true → isCovered topic pattern = true) ↔
      ¬ Overreaches filter pattern := by
  have hwritten := within_iff_written hfilter [pattern]
  simp only [Within, List.mem_singleton, exists_eq_left] at hwritten
  refine hwritten.trans ⟨fun h hreach => ?_, fun hreach narrowed => ?_⟩
  · obtain ⟨narrowed, hwrites, hescapes⟩ := exists_writesOut_of_overreaches hcovered hreach
    rw [h narrowed hwrites] at hescapes
    cases hescapes
  · exact isCovered_of_writesOut hcovered hreach

end Inclusion
end MqttGateway.Topic
