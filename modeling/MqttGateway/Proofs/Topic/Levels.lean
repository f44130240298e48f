import MqttGateway.Topic.Filter
/-!
# Names and filters by their levels

A text is put together from its levels, and what begins with whole levels is split behind them. A
filter covers a name behind a common root only if the roots meet, level by level.
-/
namespace MqttGateway.Topic

def join (levels : List Level) : List Char :=
  ['/'].intercalate levels

theorem join_cons_cons (first second : Level) (rest : List Level) :
    join (first :: second :: rest) = first ++ '/' :: join (second :: rest) := by
  rw [join, List.intercalate_cons_cons, List.append_assoc]
  rfl

theorem join_levels (text : String) : join (levels text) = text.toList :=
  List.intercalate_splitOn '/'

theorem levels_join {ls : List Level} (hne : ls ≠ []) (hslash : ∀ level ∈ ls, '/' ∉ level) :
    levels (String.ofList (join ls)) = ls := by
  rw [levels, String.toList_ofList]
  exact List.splitOn_intercalate '/' hslash hne

theorem slash_notMem_of_mem_splitOn {text : List Char} {level : Level}
    (h : level ∈ text.splitOn '/') : '/' ∉ level := by
  induction text generalizing level with
  | nil =>
    rw [List.splitOn_nil, List.mem_singleton] at h
    rw [h]
    exact List.not_mem_nil
  | cons c text ih =>
    rw [List.splitOn_cons_eq_if_modifyHead] at h
    by_cases hc : c = '/'
    · rw [if_pos (beq_iff_eq.mpr hc)] at h
      rcases List.mem_cons.mp h with rfl | h
      · exact List.not_mem_nil
      · exact ih h
    · obtain ⟨first, rest, hsplit⟩ := List.exists_cons_of_ne_nil (List.splitOn_ne_nil '/' text)
      rw [if_neg (by simpa using hc), hsplit, List.modifyHead_cons] at h
      rw [hsplit] at ih
      rcases List.mem_cons.mp h with rfl | h
      · intro hmem
        rcases List.mem_cons.mp hmem with heq | hmem
        · exact hc heq.symm
        · exact ih List.mem_cons_self hmem
      · exact ih (List.mem_cons_of_mem _ h)

theorem mem_join {c : Char} (hc : c ≠ '/') {ls : List Level} :
    c ∈ join ls ↔ ∃ level ∈ ls, c ∈ level := by
  induction ls with
  | nil => simp [join]
  | cons first ls ih =>
    cases ls with
    | nil => simp [join]
    | cons second rest =>
      rw [join_cons_cons, List.mem_append, List.mem_cons, ih]
      generalize second :: rest = ls
      simp [hc]

def isPlain (level : Level) : Bool :=
  !level.isEmpty && !level.contains '+' && !level.contains '#'

theorem isName_iff {topic : String} :
    isName topic = true ↔ ∀ level ∈ levels topic, isPlain level = true :=
  List.all_eq_true

/-! ## Covering level by level -/

section Covers

variable {level name : Level} {filter names : List Level}

theorem covers_hash : covers (['#'] :: filter) names = filter.isEmpty := by
  cases names <;> rfl

theorem covers_cons_nil (hwild : level ≠ ['#']) : covers (level :: filter) [] = false := by
  simp [covers, hwild]

theorem covers_cons_cons (hwild : level ≠ ['#']) : covers (level :: filter) (name :: names) =
    ((level == ['+'] || level == name) && covers filter names) := by
  simp [covers, hwild]

end Covers

/-! ## Roots -/

/-- Whether something behind the levels of a name's root can be covered by something behind the
levels of a filter's root. -/
def meets : (names filter : List Level) → Bool
  | _, [] => true
  | [], level :: filter => level ≠ ['#'] && (level == ['+'] || isPlain level) && meets [] filter
  | name :: names, level :: filter =>
    level ≠ ['#'] && (level == ['+'] || level == name) && meets names filter

theorem meets_of_covers {names filter more rest : List Level}
    (hplain : ∀ level ∈ more, isPlain level = true) (hrest : rest ≠ [])
    (h : covers (filter ++ rest) (names ++ more) = true) : meets names filter = true := by
  induction filter generalizing names more with
  | nil => cases names <;> rfl
  | cons level filter ih =>
    have hwild : level ≠ ['#'] := by
      rintro rfl
      rw [List.cons_append, covers_hash, List.isEmpty_iff] at h
      exact hrest (List.append_eq_nil_iff.mp h).2
    rw [List.cons_append] at h
    cases names with
    | nil =>
      -- the root of the names is used up: plain names stand against the rest of the filter's
      cases more with
      | nil =>
        rw [List.append_nil, covers_cons_nil hwild] at h
        cases h
      | cons name more =>
        rw [List.nil_append, covers_cons_cons hwild] at h
        obtain ⟨hlevel, hcovers⟩ := Bool.and_eq_true_iff.mp h
        have hmeets : meets [] filter = true :=
          ih (fun level hl => hplain level (List.mem_cons_of_mem _ hl)) hcovers
        have hplain' : (level == ['+'] || isPlain level) = true := by
          rcases Bool.or_eq_true_iff.mp hlevel with hplus | hname
          · rw [hplus, Bool.true_or]
          · rw [eq_of_beq hname, hplain name List.mem_cons_self, Bool.or_true]
        rw [meets, hplain', hmeets]
        simpa using hwild
    | cons name names =>
      rw [List.cons_append, covers_cons_cons hwild] at h
      obtain ⟨hlevel, hcovers⟩ := Bool.and_eq_true_iff.mp h
      rw [meets, hlevel, ih hplain hcovers]
      simpa using hwild

/-- Where roots meet there is a name behind the one that everything behind the other covers. -/
theorem exists_covered_of_meets {names filter : List Level}
    (hslash : ∀ level ∈ filter, '/' ∉ level) (h : meets names filter = true) :
    ∃ more, more ≠ [] ∧ (∀ level ∈ more, isPlain level = true ∧ '/' ∉ level) ∧
      covers (filter ++ [['#']]) (names ++ more) = true := by
  induction filter generalizing names with
  | nil => exact ⟨[['x']], List.cons_ne_nil _ _, by decide, rfl⟩
  | cons level filter ih =>
    have hrest : ∀ l ∈ filter, '/' ∉ l := fun l hl => hslash l (List.mem_cons_of_mem _ hl)
    cases names with
    | nil =>
      simp only [meets, Bool.and_eq_true, decide_eq_true_eq] at h
      obtain ⟨⟨hwild, hlevel⟩, hmeets⟩ := h
      obtain ⟨more, hne, hmore, hcovers⟩ := ih hrest hmeets
      -- a wildcard covers any name, another level only itself
      obtain ⟨name, hname, hcovered⟩ : ∃ name, (isPlain name = true ∧ '/' ∉ name) ∧
          (level == ['+'] || level == name) = true := by
        rcases Bool.or_eq_true_iff.mp hlevel with hplus | hplain
        · exact ⟨['x'], by decide, by rw [hplus, Bool.true_or]⟩
        · exact ⟨level, ⟨hplain, hslash level List.mem_cons_self⟩, by simp⟩
      refine ⟨name :: more, List.cons_ne_nil _ _, ?_, ?_⟩
      · rintro l hl
        rcases List.mem_cons.mp hl with rfl | hl
        · exact hname
        · exact hmore l hl
      · rw [List.cons_append, List.nil_append, covers_cons_cons hwild]
        exact Bool.and_eq_true_iff.mpr ⟨hcovered, hcovers⟩
    | cons name names =>
      simp only [meets, Bool.and_eq_true, decide_eq_true_eq] at h
      obtain ⟨⟨hwild, hlevel⟩, hmeets⟩ := h
      obtain ⟨more, hne, hmore, hcovers⟩ := ih hrest hmeets
      refine ⟨more, hne, hmore, ?_⟩
      rw [List.cons_append, List.cons_append, covers_cons_cons hwild]
      exact Bool.and_eq_true_iff.mpr ⟨hlevel, hcovers⟩

/-- Roots do not meet if they differ in a level that is not a wildcard of the filter's. -/
theorem meets_eq_false {names filter : List Level} {k : Nat} {name level : Level}
    (hname : names[k]? = some name) (hlevel : filter[k]? = some level) (hplus : level ≠ ['+'])
    (hne : level ≠ name) : meets names filter = false := by
  induction k generalizing names filter with
  | zero =>
    cases names with
    | nil => cases hname
    | cons a names =>
      cases filter with
      | nil => cases hlevel
      | cons b filter =>
        cases hname
        cases hlevel
        simp [meets, hplus, hne]
  | succ k ih =>
    cases names with
    | nil => cases hname
    | cons a names =>
      cases filter with
      | nil => cases hlevel
      | cons b filter => rw [meets, ih hname hlevel, Bool.and_false]

end MqttGateway.Topic
