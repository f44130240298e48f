import Mathlib.Data.List.TakeDrop
import Mathlib.Tactic.IntervalCases
import MqttGateway.Json.Printer
import MqttGateway.Json.Reader
/-!
# Reading back printed JSON

Main statement: a value without faults in it is read back from its printed form. Each part of the
printed form is read back whatever follows it, as long as that does not go on with a numeral.
-/
namespace MqttGateway.Json

/-- Values that were read to their end, whose numbers are integers within the range of a double. -/
inductive Whole : Json → Prop
  | null : Whole .null
  | bool (b : Bool) : Whole (.bool b)
  | number {n : Int} : n.natAbs < overflow → Whole (.number n)
  | string (s : String) : Whole (.string s)
  | array {items : List Json} : (∀ item ∈ items, Whole item) → Whole (.array items none)
  | object {members : List (String × Json)} : (∀ m ∈ members, Whole m.2) →
      Whole (.object members none)

/-! ## Strings -/

theorem hex4_hexPair {n : Nat} (hn : n < 0x20) (rest : List Char) :
    hex4 ('0' :: '0' :: (hexPair n ++ rest)) = .ok (n, rest) := by
  interval_cases n <;> rfl

theorem characters_escape (c : Char) (fuel : Nat) (acc : List Char) (paired : Bool)
    (rest : List Char) :
    characters (fuel + 1) acc paired (escape c ++ rest) =
      characters fuel (c :: acc) paired rest := by
  rw [escape.eq_def]
  split
  all_goals try rfl
  case h_8 hquote hslash _ _ _ _ _ =>
    split
    case isTrue hc =>
      have hhigh : isHigh c.toNat = false := by simp only [isHigh]; grind
      have hlow : isLow c.toNat = false := by simp only [isLow]; grind
      show characters (fuel + 1) acc paired ('\\' :: 'u' :: '0' :: '0' :: (hexPair _ ++ rest)) = _
      rw [characters, hex4_hexPair hc]
      simp only [bind, Except.bind, hhigh, hlow, Char.ofNat_toNat, Bool.false_eq_true, if_false]
    case isFalse hc =>
      rw [List.singleton_append, characters, if_neg hc]
      · exact hquote
      · exact fun h => absurd h hslash
      · exact fun _ h => absurd h hslash
      · exact fun _ _ h => absurd h hslash

theorem escape_ne_nil (c : Char) : escape c ≠ [] := by
  rw [escape.eq_def]
  split
  case h_8 => split <;> nofun
  all_goals nofun

theorem length_le_length_flatMap_escape (cs : List Char) :
    cs.length ≤ (cs.flatMap escape).length := by
  induction cs with
  | nil => exact Nat.le_refl _
  | cons c cs ih =>
    have hc := List.length_pos_iff.mpr (escape_ne_nil c)
    simp only [List.flatMap_cons, List.length_cons, List.length_append]
    omega

theorem characters_flatMap_escape (cs : List Char) {fuel : Nat} (hfuel : cs.length < fuel)
    (acc : List Char) (rest : List Char) :
    characters fuel acc true (cs.flatMap escape ++ '"' :: rest) =
      .ok (acc.reverse ++ cs, true, rest) := by
  induction cs generalizing fuel acc with
  | nil =>
    obtain ⟨fuel, rfl⟩ := Nat.exists_eq_succ_of_ne_zero (Nat.ne_of_gt hfuel)
    rw [List.append_nil]
    rfl
  | cons c cs ih =>
    cases fuel with
    | zero => cases hfuel
    | succ fuel =>
      rw [List.flatMap_cons, List.append_assoc, characters_escape,
        ih (Nat.lt_of_succ_lt_succ hfuel), List.reverse_cons, List.append_assoc]
      rfl

theorem stringBody_escape (s : String) (rest : List Char) :
    stringBody (s.toList.flatMap escape ++ '"' :: rest) = .ok (s.toList, true, rest) := by
  refine characters_flatMap_escape s.toList ?_ [] rest
  have hlen := length_le_length_flatMap_escape s.toList
  rw [List.length_append]
  omega

theorem quote_append (s : String) (rest : List Char) :
    quote s ++ rest = '"' :: (s.toList.flatMap escape ++ '"' :: rest) := by
  simp [quote]

/-! ## Numerals -/

/-- A text that does not go on with a numeral: the end, or what follows a value in a larger one. -/
def Ends (rest : List Char) : Prop :=
  ∀ c ∈ rest.head?, c = ',' ∨ c = ']' ∨ c = '}'

theorem naturalOf_toDigits (n : Nat) : naturalOf (Nat.toDigits 10 n) = n := by
  refine Eq.trans ?_ (Nat.ofDigitChars_ten_toDigits (n := n))
  simp only [naturalOf, Nat.ofDigitChars_eq_foldl, Nat.mul_comm 10]
  rfl

theorem exists_toDigits_eq_cons (n : Nat) :
    ∃ d ds, Nat.toDigits 10 n = d :: ds ∧ d.isDigit = true := by
  obtain ⟨d, ds, hds⟩ := List.exists_cons_of_ne_nil (Nat.toDigits_ne_nil (n := n) (b := 10))
  have hd : d ∈ Nat.toDigits 10 n := hds ▸ List.mem_cons_self
  exact ⟨d, ds, hds, Nat.isDigit_of_mem_toDigits (by decide) (by decide) hd⟩

theorem toDigits_eq_zero_or (n : Nat) :
    Nat.toDigits 10 n = ['0'] ∨ ∃ d ds, Nat.toDigits 10 n = d :: ds ∧ d ≠ '0' := by
  induction n using Nat.strongRecOn with
  | _ n ih =>
    by_cases hn : n < 10
    · rw [Nat.toDigits_of_lt_base hn]
      by_cases h : n.digitChar = '0'
      · exact .inl (by rw [h])
      · exact .inr ⟨_, _, rfl, h⟩
    · rw [Nat.toDigits_of_base_le (by decide) (Nat.not_lt.mp hn)]
      obtain h | ⟨d, ds, h, hd⟩ := ih (n / 10) (by omega)
      · have hzero : n / 10 = 0 := by rw [← naturalOf_toDigits (n / 10), h]; rfl
        omega
      · exact .inr ⟨d, ds ++ [_], by rw [h]; rfl, hd⟩

theorem Ends.head_not_isDigit {c : Char} {rest : List Char} (h : Ends (c :: rest)) :
    c.isDigit = false := by
  rcases h c rfl with rfl | rfl | rfl <;> rfl

theorem span_toDigits (n : Nat) {rest : List Char} (hrest : Ends rest) :
    (Nat.toDigits 10 n ++ rest).span Char.isDigit = (Nat.toDigits 10 n, rest) := by
  have hall : ∀ c ∈ Nat.toDigits 10 n, c.isDigit = true :=
    fun c => Nat.isDigit_of_mem_toDigits (by decide) (by decide)
  rw [List.span_eq_takeWhile_dropWhile, List.takeWhile_append_of_pos hall,
    List.dropWhile_append_of_pos hall]
  cases rest with
  | nil => rw [List.takeWhile_nil, List.append_nil, List.dropWhile_nil]
  | cons c rest =>
    have hc : ¬ c.isDigit = true := by simp [hrest.head_not_isDigit]
    rw [List.takeWhile_cons_of_neg hc, List.append_nil, List.dropWhile_cons_of_neg hc]

theorem digits1_toDigits (n : Nat) {rest : List Char} (hrest : Ends rest) :
    digits1 (Nat.toDigits 10 n ++ rest) = .ok (Nat.toDigits 10 n, rest) := by
  rw [← span_toDigits n hrest]
  obtain ⟨d, ds, hds, hd⟩ := exists_toDigits_eq_cons n
  rw [hds, List.cons_append, digits1, if_pos hd]

theorem whole_toDigits (n : Nat) {rest : List Char} (hrest : Ends rest) :
    whole (Nat.toDigits 10 n ++ rest) = .ok (Nat.toDigits 10 n, rest) := by
  obtain hn | ⟨d, ds, hn, hd⟩ := toDigits_eq_zero_or n
  · cases rest with
    | nil => rw [hn]; rfl
    | cons c rest =>
      rw [hn, List.singleton_append, whole, if_neg (by simp [hrest.head_not_isDigit])]
  · rw [← digits1_toDigits n hrest, hn, List.cons_append, whole]
    · nofun
    · exact fun _ _ h => absurd (List.cons.inj h).1 hd

theorem fraction_of_ends {rest : List Char} (hrest : Ends rest) :
    fraction rest = .ok ([], rest) := by
  rw [fraction]
  rintro rest rfl
  rcases hrest '.' rfl with h | h | h <;> cases h

theorem exponent_of_ends {rest : List Char} (hrest : Ends rest) :
    exponent rest = .ok (none, rest) := by
  cases rest with
  | nil => rfl
  | cons c rest =>
    have hc : ¬ (c = 'e' ∨ c = 'E') := by
      rcases hrest c rfl with rfl | rfl | rfl <;> decide
    rw [exponent.eq_def]
    exact if_neg hc

/-- The digits of a natural number are read as that number. -/
theorem numeral_toDigits {n : Nat} (hn : n < overflow) {rest : List Char} (hrest : Ends rest) :
    numeral false (Nat.toDigits 10 n ++ rest) = (.number n, .ok rest) ∧
    (n ≠ 0 → numeral true (Nat.toDigits 10 n ++ rest) = (.number (-n), .ok rest)) := by
  have hparts (negative : Bool) : ∃ text, parts negative (Nat.toDigits 10 n ++ rest) =
      .ok (ofParts negative (Nat.toDigits 10 n) [] none text, rest) := by
    rw [parts, whole_toDigits n hrest]
    simp only [bind, Except.bind, fraction_of_ends hrest, exponent_of_ends hrest]
    exact ⟨_, rfl⟩
  have hnatural : naturalOf (Nat.toDigits 10 n ++ []) = n := by
    rw [List.append_nil, naturalOf_toDigits]
  constructor
  · obtain ⟨text, htext⟩ := hparts false
    rw [numeral, htext]
    simp only [ofParts, hnatural, if_neg (Nat.not_le.mpr hn)]
    rfl
  · intro hzero
    obtain ⟨text, htext⟩ := hparts true
    rw [numeral, htext]
    simp only [ofParts, hnatural, if_neg (Nat.not_le.mpr hn), if_neg hzero]
    rfl

theorem print_number (n : Int) : print (.number n) =
    if 0 ≤ n then Nat.toDigits 10 n.toNat else '-' :: Nat.toDigits 10 (-n).toNat := by
  rw [print, Int.toString_eq_repr, Int.repr_eq_if]
  split <;> simp [Nat.repr_eq_ofList_toDigits]

/-! ## Values -/

def printItemsAfter : List Json → List Char
  | [] => [']']
  | items => ',' :: printItems items

def printMembersAfter : List (String × Json) → List Char
  | [] => ['}']
  | members => ',' :: printMembers members

theorem printItems_cons (v : Json) (vs : List Json) :
    printItems (v :: vs) = v.print ++ printItemsAfter vs := by
  cases vs <;> rfl

theorem printItemsAfter_cons (v : Json) (vs : List Json) :
    printItemsAfter (v :: vs) = ',' :: (v.print ++ printItemsAfter vs) :=
  congrArg (',' :: ·) (printItems_cons v vs)

theorem printMembers_cons (key : String) (v : Json) (ms : List (String × Json)) :
    printMembers ((key, v) :: ms) = quote key ++ ':' :: (v.print ++ printMembersAfter ms) := by
  cases ms <;> simp [printMembers, printMembersAfter]

theorem printMembersAfter_cons (key : String) (v : Json) (ms : List (String × Json)) :
    printMembersAfter ((key, v) :: ms) =
      ',' :: (quote key ++ ':' :: (v.print ++ printMembersAfter ms)) :=
  congrArg (',' :: ·) (printMembers_cons key v ms)

theorem length_printItemsAfter_pos (vs : List Json) : 0 < (printItemsAfter vs).length := by
  cases vs <;> exact Nat.succ_pos _

theorem ends_printItemsAfter (items : List Json) (rest : List Char) :
    Ends (printItemsAfter items ++ rest) := by
  cases items <;> rintro c ⟨⟩ <;> simp

theorem ends_printMembersAfter (members : List (String × Json)) (rest : List Char) :
    Ends (printMembersAfter members ++ rest) := by
  cases members <;> rintro c ⟨⟩ <;> simp

theorem skip_cons {c : Char} (hc : isBlank c = false) (rest : List Char) :
    skip (c :: rest) = c :: rest :=
  List.dropWhile_cons_of_neg (by simp [hc])

theorem isBlank_of_isDigit {c : Char} (hc : c.isDigit = true) : isBlank c = false := by
  simp only [isBlank, Bool.or_eq_false_iff, beq_eq_false_iff_ne]
  refine ⟨⟨⟨?_, ?_⟩, ?_⟩, ?_⟩ <;> (rintro rfl; cases hc)

/-- No value starts with a blank or with the end of an array. -/
theorem Whole.exists_print_eq {v : Json} (h : v.Whole) :
    ∃ c cs, v.print = c :: cs ∧ isBlank c = false ∧ c ≠ ']' := by
  cases h with
  | null => exact ⟨_, _, rfl, by decide, by decide⟩
  | bool b => cases b <;> exact ⟨_, _, rfl, by decide, by decide⟩
  | @number n hn =>
    rw [print_number]
    split
    · obtain ⟨d, ds, hds, hd⟩ := exists_toDigits_eq_cons n.toNat
      refine ⟨d, ds, hds, isBlank_of_isDigit hd, ?_⟩
      rintro rfl
      cases hd
    · exact ⟨_, _, rfl, by decide, by decide⟩
  | string s => exact ⟨_, _, rfl, by decide, by decide⟩
  | array h => exact ⟨_, _, rfl, by decide, by decide⟩
  | object h => exact ⟨_, _, rfl, by decide, by decide⟩

theorem Whole.length_print_pos {v : Json} (h : v.Whole) : 0 < v.print.length := by
  obtain ⟨c, cs, hprint, -⟩ := h.exists_print_eq
  rw [hprint]
  exact Nat.succ_pos _

theorem value_digit {c : Char} (hc : c.isDigit = true) (fuel : Nat) (rest : List Char) :
    value (fuel + 1) (c :: rest) = numeral false (c :: rest) := by
  rw [value, skip_cons (isBlank_of_isDigit hc)]
  split
  case h_9 heq =>
    obtain ⟨rfl, rfl⟩ := List.cons.inj heq
    exact if_pos hc
  all_goals
    rename_i heq
    cases heq
    try cases hc

def ReadsBack (v : Json) : Prop :=
  ∀ fuel rest, v.print.length ≤ fuel → Ends rest → value fuel (v.print ++ rest) = (v, .ok rest)

theorem readsBack_number {n : Int} (hn : n.natAbs < overflow) : ReadsBack (.number n) := by
  intro fuel rest hfuel hrest
  obtain ⟨c, cs, hprint, hblank, -⟩ := (Whole.number hn).exists_print_eq
  cases fuel with
  | zero => simp [hprint] at hfuel
  | succ fuel =>
    rw [print_number]
    split
    case isTrue hsign =>
      obtain ⟨d, ds, hds, hd⟩ := exists_toDigits_eq_cons n.toNat
      have hnumeral := (numeral_toDigits (n := n.toNat) (by omega) hrest).1
      rw [hds, List.cons_append] at hnumeral ⊢
      rw [value_digit hd, hnumeral, Int.toNat_of_nonneg hsign]
    case isFalse hsign =>
      have hnumeral := (numeral_toDigits (n := (-n).toNat) (by omega) hrest).2 (by omega)
      rw [List.cons_append, value, skip_cons (by decide)]
      refine hnumeral.trans ?_
      rw [Int.toNat_of_nonneg (by omega), Int.neg_neg]

section Containers

variable {fuel : Nat}

/-- An item is read, be it the first or after a comma. -/
theorem items_print {v : Json} (hv : v.Whole) {rest : List Char}
    (hvalue : value fuel (v.print ++ rest) = (v, .ok rest)) :
    let more := items fuel false rest
    items (fuel + 1) true (v.print ++ rest) = (v :: more.1, more.2) ∧
      items (fuel + 1) false (',' :: (v.print ++ rest)) = (v :: more.1, more.2) := by
  obtain ⟨c, cs, hprint, hblank, hend⟩ := hv.exists_print_eq
  rw [hprint, List.cons_append] at hvalue ⊢
  constructor
  · rw [items, skip_cons hblank]
    split
    case h_2 heq => exact absurd (List.cons.inj heq).1 hend
    case h_3 heq =>
      obtain ⟨rfl, rfl⟩ := List.cons.inj heq
      simp [hvalue]
    case h_1 heq => cases heq
  · rw [items, skip_cons (by decide)]
    simp [skip_cons hblank, hend, hvalue]

theorem members_print (key : String) {v : Json} {rest : List Char}
    (hvalue : value fuel (v.print ++ rest) = (v, .ok rest)) :
    let more := members fuel false rest
    members (fuel + 1) true (quote key ++ ':' :: (v.print ++ rest)) =
        ((key, v) :: more.1, more.2) ∧
      members (fuel + 1) false (',' :: (quote key ++ ':' :: (v.print ++ rest))) =
        ((key, v) :: more.1, more.2) := by
  rw [quote_append]
  constructor
  · rw [members, skip_cons (by decide)]
    simp [stringBody_escape, skip_cons (c := ':') (by decide), hvalue]
  · rw [members, skip_cons (by decide)]
    simp [stringBody_escape, skip_cons (c := ':') (by decide), skip_cons (c := '"') (by decide),
      hvalue]

theorem items_printItemsAfter {vs : List Json} (hwhole : ∀ v ∈ vs, v.Whole)
    (hread : ∀ v ∈ vs, ReadsBack v) (hfuel : (printItemsAfter vs).length ≤ fuel)
    (rest : List Char) : items fuel false (printItemsAfter vs ++ rest) = (vs, .ok rest) := by
  induction vs generalizing fuel with
  | nil =>
    cases fuel with
    | zero => cases hfuel
    | succ fuel => rfl
  | cons v vs ih =>
    obtain ⟨hv, hvs⟩ := List.forall_mem_cons.mp hwhole
    obtain ⟨hreadv, hreadvs⟩ := List.forall_mem_cons.mp hread
    rw [printItemsAfter_cons, List.length_cons, List.length_append] at hfuel
    cases fuel with
    | zero => cases hfuel
    | succ fuel =>
      have hvalue := hreadv fuel _ (by omega) (ends_printItemsAfter vs rest)
      rw [printItemsAfter_cons, List.cons_append, List.append_assoc, (items_print hv hvalue).2,
        ih hvs hreadvs (by omega)]

theorem items_printItems {vs : List Json} (hwhole : ∀ v ∈ vs, v.Whole)
    (hread : ∀ v ∈ vs, ReadsBack v) (hfuel : (printItems vs).length ≤ fuel) (rest : List Char) :
    items fuel true (printItems vs ++ rest) = (vs, .ok rest) := by
  cases vs with
  | nil =>
    cases fuel with
    | zero => cases hfuel
    | succ fuel => rfl
  | cons v vs =>
    obtain ⟨hv, hvs⟩ := List.forall_mem_cons.mp hwhole
    obtain ⟨hreadv, hreadvs⟩ := List.forall_mem_cons.mp hread
    have hpos := hv.length_print_pos
    have hafter := length_printItemsAfter_pos vs
    rw [printItems_cons, List.length_append] at hfuel
    cases fuel with
    | zero => omega
    | succ fuel =>
      have hvalue := hreadv fuel _ (by omega) (ends_printItemsAfter vs rest)
      rw [printItems_cons, List.append_assoc, (items_print hv hvalue).1,
        items_printItemsAfter hvs hreadvs (by omega)]

theorem members_printMembersAfter {ms : List (String × Json)} (hread : ∀ m ∈ ms, ReadsBack m.2)
    (hfuel : (printMembersAfter ms).length ≤ fuel) (rest : List Char) :
    members fuel false (printMembersAfter ms ++ rest) = (ms, .ok rest) := by
  induction ms generalizing fuel with
  | nil =>
    cases fuel with
    | zero => cases hfuel
    | succ fuel => rfl
  | cons m ms ih =>
    obtain ⟨key, v⟩ := m
    obtain ⟨hreadv, hreadms⟩ : ReadsBack v ∧ ∀ m ∈ ms, ReadsBack m.2 :=
      List.forall_mem_cons.mp hread
    simp only [printMembersAfter_cons, List.length_cons, List.length_append] at hfuel
    cases fuel with
    | zero => cases hfuel
    | succ fuel =>
      have hvalue := hreadv fuel _ (by omega) (ends_printMembersAfter ms rest)
      rw [printMembersAfter_cons, List.cons_append, List.append_assoc, List.cons_append,
        List.append_assoc, (members_print key hvalue).2, ih hreadms (by omega)]

theorem members_printMembers {ms : List (String × Json)} (hread : ∀ m ∈ ms, ReadsBack m.2)
    (hfuel : (printMembers ms).length ≤ fuel) (rest : List Char) :
    members fuel true (printMembers ms ++ rest) = (ms, .ok rest) := by
  cases ms with
  | nil =>
    cases fuel with
    | zero => cases hfuel
    | succ fuel => rfl
  | cons m ms =>
    obtain ⟨key, v⟩ := m
    obtain ⟨hreadv, hreadms⟩ : ReadsBack v ∧ ∀ m ∈ ms, ReadsBack m.2 :=
      List.forall_mem_cons.mp hread
    simp only [printMembers_cons, List.length_cons, List.length_append] at hfuel
    cases fuel with
    | zero => cases hfuel
    | succ fuel =>
      have hvalue := hreadv fuel _ (by omega) (ends_printMembersAfter ms rest)
      rw [printMembers_cons, List.append_assoc, List.cons_append,
        List.append_assoc, (members_print key hvalue).1,
        members_printMembersAfter hreadms (by omega)]

end Containers

theorem Whole.readsBack {v : Json} (h : v.Whole) : ReadsBack v := by
  induction h with
  | null =>
    intro fuel rest hfuel _
    cases fuel with
    | zero => cases hfuel
    | succ fuel => rfl
  | bool b =>
    intro fuel rest hfuel _
    cases fuel with
    | zero => cases b <;> cases hfuel
    | succ fuel => cases b <;> rfl
  | number hn => exact readsBack_number hn
  | string s =>
    intro fuel rest hfuel _
    cases fuel with
    | zero => cases hfuel
    | succ fuel =>
      rw [print, quote_append, value, skip_cons (by decide)]
      simp [stringBody_escape]
  | array hwhole hread =>
    intro fuel rest hfuel _
    cases fuel with
    | zero => cases hfuel
    | succ fuel =>
      rw [print, List.cons_append, value, skip_cons (by decide)]
      simp [items_printItems hwhole hread (Nat.le_of_succ_le_succ hfuel)]
  | object _ hread =>
    intro fuel rest hfuel _
    cases fuel with
    | zero => cases hfuel
    | succ fuel =>
      rw [print, List.cons_append, value, skip_cons (by decide)]
      simp [members_printMembers hread (Nat.le_of_succ_le_succ hfuel)]

/-- A whole value is read back from its printed form, and nothing is left of it. -/
theorem Whole.read_render {v : Json} (h : v.Whole) : read v.render = (v, none) := by
  have hvalue := h.readsBack (v.print.length + 1) [] (Nat.le_succ _) nofun
  rw [List.append_nil] at hvalue
  simp [read, render, hvalue, skip]

end MqttGateway.Json
