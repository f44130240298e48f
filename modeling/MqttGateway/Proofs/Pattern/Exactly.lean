import MqttGateway.Pattern.Reader
/-!
# Patterns for exact texts

A condition on an exact text is a pattern that is anchored at both ends. It is found in this text
and in no other, and it is what the text reads as when it is written between anchors, with a
backslash in front of every character that would have a meaning of its own.
-/
namespace MqttGateway.Pattern

/-! ## Searching for a text -/

def remaining (cs : List Char) : Pattern :=
  cs.foldr (fun c p => .seq (.set (.single c)) p) (.look .textEnd)

theorem exactly_eq (text : String) :
    exactly text = .seq (.look .textStart) (remaining text.toList) :=
  rfl

theorem mem_single_iff {c d : Char} : (CharSet.single d).mem c = true ↔ c = d := by
  rw [CharSet.single, CharSet.mem, Bool.and_eq_true, decide_eq_true_iff, decide_eq_true_iff]
  constructor
  · rintro ⟨hle, hge⟩
    exact Char.toNat_inj.mp (Nat.le_antisymm hge hle)
  · rintro rfl
    exact ⟨Nat.le_refl _, Nat.le_refl _⟩

theorem remaining_injective : Function.Injective remaining := by
  intro cs
  induction cs with
  | nil =>
    intro ds h
    cases ds with
    | nil => rfl
    | cons d ds => cases h
  | cons c cs ih =>
    intro ds h
    cases ds with
    | nil => cases h
    | cons d ds =>
      obtain ⟨hset, hrest⟩ := Pattern.seq.inj h
      have hchar : c = d := by
        rw [← mem_single_iff, ← Pattern.set.inj hset]
        exact mem_single_iff.mpr rfl
      rw [hchar, ih hrest]

theorem nullable_remaining_iff {before after : Option Char} {cs : List Char} :
    nullable before after (remaining cs) = true ↔ cs = [] ∧ after = none := by
  cases cs with
  | nil => simp [remaining, nullable, Look.holds]
  | cons c cs => simp [remaining, nullable]

theorem mem_residuals_remaining_iff {before : Option Char} {c : Char} {cs : List Char}
    {p : Pattern} :
    p ∈ residuals before c (remaining cs) ↔ ∃ ds, cs = c :: ds ∧ p = remaining ds := by
  cases cs with
  | nil => simp [remaining, residuals]
  | cons d ds =>
    have hresiduals : residuals before c (remaining (d :: ds)) =
        if (CharSet.single d).mem c then [remaining ds] else [] := by
      simp only [remaining, List.foldr_cons, residuals, nullable, Bool.false_eq_true, if_false]
      split <;> rfl
    rw [hresiduals]
    split
    case isTrue hmem =>
      obtain rfl := mem_single_iff.mp hmem
      simp
    case isFalse hmem =>
      have hne : d ≠ c := fun h => hmem (mem_single_iff.mpr h.symm)
      simp [hne]

/-! What the pattern for a text leaves depends on whether the search stands at the start. -/

section Anchored

variable {text : String} {before after : Option Char} {c : Char}

theorem nullable_exactly_iff :
    nullable before after (exactly text) = true ↔ before = none ∧ text.toList = [] ∧ after = none := by
  rw [exactly_eq, nullable, Bool.and_eq_true, nullable_remaining_iff, nullable, Look.holds,
    Option.isNone_iff_eq_none]

theorem residuals_exactly_start :
    residuals none c (exactly text) = residuals none c (remaining text.toList) :=
  rfl

end Anchored

/-- Once the search has passed the start of a text, only what began there is gone on with. -/
theorem find_started_iff {text : String} {b : Char} {live : List Pattern}
    (hlive : ∀ p ∈ live, ∃ ds, p = remaining ds) (cs : List Char) :
    find (exactly text) (some b) live cs = true ↔ remaining cs ∈ live := by
  induction cs generalizing b live with
  | nil =>
    rw [find, List.any_eq_true]
    constructor
    · rintro ⟨p, hp, hnullable⟩
      rcases List.mem_cons.mp hp with rfl | hp
      · cases (nullable_exactly_iff.mp hnullable).1
      · obtain ⟨ds, rfl⟩ := hlive p hp
        obtain ⟨rfl, -⟩ := nullable_remaining_iff.mp hnullable
        exact hp
    · intro hmem
      exact ⟨_, List.mem_cons_of_mem _ hmem, nullable_remaining_iff.mpr ⟨rfl, rfl⟩⟩
  | cons c cs ih =>
    have hopen : (exactly text :: live).eraseDups.any (nullable (some b) (some c)) = false := by
      refine List.any_eq_false.mpr fun p hp hnullable => ?_
      rcases List.mem_cons.mp (List.mem_eraseDups.mp hp) with rfl | hp
      · cases (nullable_exactly_iff.mp hnullable).1
      · obtain ⟨ds, rfl⟩ := hlive p hp
        cases (nullable_remaining_iff.mp hnullable).2
    have hnext {q : Pattern} :
        q ∈ (exactly text :: live).eraseDups.flatMap (residuals (some b) c) ↔
          ∃ ds, remaining (c :: ds) ∈ live ∧ q = remaining ds := by
      rw [List.mem_flatMap]
      constructor
      · rintro ⟨p, hp, hq⟩
        rcases List.mem_cons.mp (List.mem_eraseDups.mp hp) with rfl | hp
        · cases hq
        · obtain ⟨ds, rfl⟩ := hlive p hp
          obtain ⟨es, rfl, rfl⟩ := mem_residuals_remaining_iff.mp hq
          exact ⟨es, hp, rfl⟩
      · rintro ⟨ds, hp, rfl⟩
        exact ⟨_, List.mem_eraseDups.mpr (List.mem_cons_of_mem _ hp),
          mem_residuals_remaining_iff.mpr ⟨ds, rfl, rfl⟩⟩
    rw [find, hopen, Bool.false_or, ih fun q hq => (hnext.mp hq).imp fun _ h => h.2, hnext]
    constructor
    · rintro ⟨ds, hmem, hsame⟩
      rwa [remaining_injective hsame]
    · exact fun hmem => ⟨cs, hmem, rfl⟩

theorem isFoundIn_exactly_iff {e text : String} :
    (exactly e).isFoundIn text = true ↔ text = e := by
  rw [isFoundIn, ← String.toList_inj]
  cases text.toList with
  | nil =>
    rw [find, List.any_cons, List.any_nil, Bool.or_false, nullable_exactly_iff]
    constructor
    · exact fun h => h.2.1.symm
    · exact fun h => ⟨rfl, h.symm, rfl⟩
  | cons c cs =>
    have hfirst : [exactly e].eraseDups = [exactly e] := by simp [List.eraseDups_cons]
    have hopen : nullable none (some c) (exactly e) = false :=
      Bool.eq_false_iff.mpr fun h => nomatch (nullable_exactly_iff.mp h).2.2
    have hlive : ∀ p ∈ residuals none c (exactly e), ∃ ds, p = remaining ds := by
      intro p hp
      obtain ⟨ds, -, hds⟩ := mem_residuals_remaining_iff.mp (residuals_exactly_start ▸ hp)
      exact ⟨ds, hds⟩
    rw [find, hfirst, List.any_cons, hopen, List.any_nil, Bool.false_or, Bool.false_or,
      List.flatMap_singleton, find_started_iff hlive, residuals_exactly_start,
      mem_residuals_remaining_iff]
    constructor
    · rintro ⟨ds, htext, hsame⟩
      rw [htext, remaining_injective hsame]
    · exact fun h => ⟨cs, h.symm, rfl⟩

theorem ofExact_eq_ok_iff {text : String} {p : Pattern} :
    ofExact text = .ok p ↔ ¬ weightLimit < (exactly text).weight ∧ p = exactly text := by
  rw [ofExact, bounded]
  split
  case isTrue hheavy => simp [hheavy]
  case isFalse hlight => simp [hlight, eq_comm]

/-! ## Reading a text that is written out -/

def literal (c : Char) : List Char :=
  if isMeta c then ['\\', c] else [c]

def escaped (text : String) : String :=
  String.ofList (text.toList.flatMap literal)

theorem escape_of_isMeta {flags : Flags} {c : Char} (h : isMeta c = true) (rest : List Char) :
    escape flags (c :: rest) = some (.literal c, rest) := by
  have hc : c ∈ "\\.+*?()|[]\x7b\x7d^$#&-~".toList := List.contains_iff_mem.mp h
  simp only [String.reduceToList, List.mem_cons, List.not_mem_nil, or_false] at hc
  rcases hc with rfl | rfl | rfl | rfl | rfl | rfl | rfl | rfl | rfl | rfl | rfl | rfl | rfl | rfl |
    rfl | rfl | rfl | rfl <;> rfl

theorem sequence_literal {s : Progress} (hflags : s.flags = {}) (fuel : Nat) (c : Char)
    (rest : List Char) :
    sequence (fuel + 1) s (literal c ++ rest) = sequence fuel (s.push (.set (.single c))) rest := by
  have hskip (text : List Char) : skip s.flags text = text := by
    rw [hflags]
    rfl
  have hpattern : Atom.pattern s.flags (.literal c) = .set (.single c) := by
    rw [hflags]
    rfl
  rw [literal]
  split
  case isTrue hmeta =>
    rw [List.cons_append, List.singleton_append, sequence, hskip]
    show (escape s.flags (c :: rest)).bind (fun found =>
      sequence fuel (s.push (found.1.pattern s.flags)) found.2) = _
    rw [escape_of_isMeta hmeta, Option.bind_some, hpattern]
  case isFalse hmeta =>
    rw [List.singleton_append, sequence, hskip]
    -- the characters that the reader treats apart all have to be escaped
    split
    case h_1 heq => cases heq
    case h_14 heq =>
      obtain ⟨rfl, rfl⟩ := List.cons.inj heq
      rw [hpattern]
    all_goals
      rename_i heq
      obtain ⟨rfl, -⟩ := List.cons.inj heq
      exact absurd rfl hmeta

/-- Reading a text that is written out adds a piece for each of its characters. -/
theorem sequence_literals {s : Progress} (hflags : s.flags = {}) (fuel : Nat)
    (cs rest : List Char) :
    sequence (fuel + cs.length) s (cs.flatMap literal ++ rest) =
      sequence fuel { s with pieces := (cs.map fun c => some (.set (.single c))).reverse ++ s.pieces }
        rest := by
  induction cs generalizing s with
  | nil => rfl
  | cons c cs ih =>
    have hpushed : (s.push (.set (.single c))).flags = {} := hflags
    rw [List.flatMap_cons, List.append_assoc, List.length_cons, ← Nat.add_assoc,
      sequence_literal hflags, ih hpushed]
    simp [Progress.push]

theorem ofList_map_append_textEnd (cs : List Char) :
    ofList (cs.map (fun c => .set (.single c)) ++ [.look .textEnd]) = remaining cs := by
  induction cs with
  | nil => rfl
  | cons c cs ih =>
    cases cs with
    | nil => rfl
    | cons d cs => exact congrArg (Pattern.seq (.set (.single c))) ih

theorem length_le_length_literals (cs : List Char) : cs.length ≤ (cs.flatMap literal).length := by
  induction cs with
  | nil => exact Nat.le_refl _
  | cons c cs ih =>
    have hpos : 0 < (literal c).length := by
      rw [literal]
      split <;> simp
    rw [List.flatMap_cons, List.length_append, List.length_cons]
    omega

def anchoredPieces (cs : List Char) : List (Option Pattern) :=
  some (.look .textEnd) ::
    ((cs.map fun c => some (.set (.single c))).reverse ++ [some (.look .textStart)])

theorem sequence_anchored (cs : List Char) : ∀ fuel, cs.length + 3 ≤ fuel →
    sequence fuel { flags := {}, names := [] } ('^' :: (cs.flatMap literal ++ ['$'])) =
      some ({ flags := {}, names := [], pieces := anchoredPieces cs }, []) := by
  intro fuel hfuel
  obtain ⟨spare, rfl⟩ := Nat.exists_eq_add_of_le hfuel
  have hsplit : cs.length + 3 + spare = (spare + 2 + cs.length) + 1 := by omega
  rw [hsplit]
  show sequence (spare + 2 + cs.length)
    { flags := {}, names := [], pieces := [some (.look .textStart)] } _ = _
  rw [sequence_literals rfl]
  rfl

theorem current_anchored (cs : List Char) :
    { flags := {}, names := [], pieces := anchoredPieces cs : Progress }.current =
      .seq (.look .textStart) (remaining cs) := by
  have hpieces : (anchoredPieces cs).reverse.filterMap id =
      .look .textStart :: (cs.map (fun c => .set (.single c)) ++ [.look .textEnd]) := by
    simp [anchoredPieces]
  rw [Progress.current, hpieces, ← ofList_map_append_textEnd]
  cases cs <;> rfl

/-- Written out between anchors, an exact text reads as the pattern for it. -/
theorem ofText_escaped (text : String) : ofText ("^" ++ escaped text ++ "$") = ofExact text := by
  have htext : ("^" ++ escaped text ++ "$").toList =
      '^' :: (text.toList.flatMap literal ++ ['$']) := by
    simp [escaped]
  have hlong : text.toList.length + 3 ≤
      ('^' :: (text.toList.flatMap literal ++ ['$'])).length + 1 := by
    have hle := length_le_length_literals text.toList
    simp only [List.length_cons, List.length_append, List.length_nil]
    omega
  rw [ofText, htext, sequence_anchored _ _ hlong]
  exact congrArg bounded (current_anchored text.toList)

end MqttGateway.Pattern
