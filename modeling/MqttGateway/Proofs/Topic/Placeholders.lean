import MqttGateway.Proofs.Topic.Scopes
/-!
# Filling in a template at once

A template is characters and placeholders, and no two of these overlap, so it is read in a single
pass from the left. Main statement: the username and the client id, put in one after the other, give
what both give when they are put in at once, exactly if the username brings about no further place
that names the client. A username that spells the other placeholder does, and so does one that
completes it.
-/
namespace MqttGateway.Scope

inductive Placeholder
  | user | client
  deriving DecidableEq, Repr

def Placeholder.text : Placeholder → List Char
  | .user => userPlaceholder
  | .client => clientPlaceholder

inductive Part
  | literal (c : Char)
  | placeholder (h : Placeholder)
  deriving DecidableEq, Repr

def Part.fill (value : Placeholder → List Char) : Part → List Char
  | .literal c => [c]
  | .placeholder h => value h

def leading? (text : List Char) : Option Placeholder :=
  [Placeholder.user, .client].find? fun h => h.text.isPrefixOf text

def parts : List Char → List Part
  | [] => []
  | c :: cs =>
    match leading? (c :: cs) with
    | some h => .placeholder h :: parts (cs.drop (h.text.length - 1))
    | none => .literal c :: parts cs
  termination_by text => text.length
  decreasing_by all_goals simp; try omega

/-! ## Where placeholders stand -/

theorem Placeholder.text_eq_cons (h : Placeholder) :
    ∃ body, h.text = '{' :: body ∧ '{' ∉ body := by
  cases h with
  | user => exact ⟨_, rfl, by decide +kernel⟩
  | client => exact ⟨_, rfl, by decide +kernel⟩

/-- A text begins with one placeholder at most. -/
theorem Placeholder.eq_of_isPrefix {g h : Placeholder} {text : List Char} (hg : g.text <+: text)
    (hh : h.text <+: text) : g = h := by
  have hapart : ¬ userPlaceholder <+: clientPlaceholder := by decide +kernel
  have hlength : userPlaceholder.length ≤ clientPlaceholder.length := by decide +kernel
  cases g with
  | user =>
    cases h with
    | user => rfl
    | client => exact absurd (List.prefix_of_prefix_length_le hg hh hlength) hapart
  | client =>
    cases h with
    | user => exact absurd (List.prefix_of_prefix_length_le hh hg hlength) hapart
    | client => rfl

theorem leading?_eq_none_iff {text : List Char} :
    leading? text = none ↔ ∀ h : Placeholder, ¬ h.text <+: text := by
  simp only [leading?, List.find?_eq_none, List.isPrefixOf_iff_prefix]
  constructor
  · intro hnone h
    refine hnone h ?_
    cases h <;> simp
  · exact fun hnone h _ => hnone h

theorem isPrefix_of_leading? {h : Placeholder} {text : List Char} (hlead : leading? text = some h) :
    h.text <+: text := by
  rw [leading?] at hlead
  have hstart := List.find?_some hlead
  exact List.isPrefixOf_iff_prefix.mp hstart

theorem leading?_eq_some_iff {h : Placeholder} {text : List Char} :
    leading? text = some h ↔ h.text <+: text := by
  refine ⟨isPrefix_of_leading?, fun hstart => ?_⟩
  cases hlead : leading? text with
  | none => exact absurd hstart (leading?_eq_none_iff.mp hlead h)
  | some g => rw [Placeholder.eq_of_isPrefix (isPrefix_of_leading? hlead) hstart]

theorem not_isPrefix_of_ne_brace {h : Placeholder} {c : Char} {cs : List Char} (hc : c ≠ '{') :
    ¬ h.text <+: c :: cs := by
  obtain ⟨body, hbody, -⟩ := h.text_eq_cons
  rw [hbody, List.cons_prefix_cons]
  exact fun hstart => hc hstart.1.symm

theorem parts_cons_of_ne_brace {c : Char} {cs : List Char} (hc : c ≠ '{') :
    parts (c :: cs) = .literal c :: parts cs := by
  rw [parts, leading?_eq_none_iff.mpr fun _ => not_isPrefix_of_ne_brace hc]

theorem parts_text_append (h : Placeholder) (b : List Char) :
    parts (h.text ++ b) = .placeholder h :: parts b := by
  obtain ⟨body, hbody, -⟩ := h.text_eq_cons
  have hlead : leading? ('{' :: (body ++ b)) = some h := by
    rw [leading?_eq_some_iff, hbody]
    exact List.prefix_append _ b
  rw [hbody, List.cons_append, parts, hlead]
  simp only [hbody, List.length_cons, Nat.add_sub_cancel, List.drop_left]

/-- A placeholder is read wherever it stands. -/
theorem parts_append_text_append (a : List Char) (h : Placeholder) (b : List Char) :
    parts (a ++ (h.text ++ b)) = parts a ++ .placeholder h :: parts b := by
  fun_induction parts a with
  | case1 => rw [List.nil_append, List.nil_append, parts_text_append]
  | case2 c cs g hlead ih =>
    have hstart := isPrefix_of_leading? hlead
    have hlater : leading? (c :: (cs ++ (h.text ++ b))) = some g :=
      leading?_eq_some_iff.mpr (hstart.trans (List.prefix_append ..))
    have hlength := hstart.length_le
    have hdrop : (cs ++ (h.text ++ b)).drop (g.text.length - 1) =
        cs.drop (g.text.length - 1) ++ (h.text ++ b) := by
      rw [List.drop_append_of_le_length]
      rw [List.length_cons] at hlength
      omega
    rw [List.cons_append, parts, hlater]
    simp only [hdrop, ih, List.cons_append]
  | case3 c cs hlead ih =>
    -- no placeholder reaches over the brace that the next one begins with
    have hlater : leading? (c :: (cs ++ (h.text ++ b))) = none := by
      refine leading?_eq_none_iff.mpr fun g hstart => ?_
      obtain ⟨body, hbody, -⟩ := h.text_eq_cons
      obtain ⟨own, hown, hbrace⟩ := g.text_eq_cons
      rw [hown, List.cons_prefix_cons, hbody, List.cons_append] at hstart
      refine leading?_eq_none_iff.mp hlead g ?_
      rw [hown, List.cons_prefix_cons]
      exact ⟨hstart.1, isPrefix_of_append_cons hbrace hstart.2⟩
    rw [List.cons_append, parts, hlater]
    simp only [ih, List.cons_append]

theorem flatMap_text_parts (text : List Char) :
    (parts text).flatMap (Part.fill Placeholder.text) = text := by
  fun_induction parts text with
  | case1 => rfl
  | case2 c cs h hlead ih =>
    obtain ⟨rest, hrest⟩ := isPrefix_of_leading? hlead
    obtain ⟨body, hbody, -⟩ := h.text_eq_cons
    rw [hbody, List.cons_append] at hrest
    obtain ⟨rfl, rfl⟩ := List.cons.inj hrest
    rw [List.flatMap_cons, ih, Part.fill, hbody]
    simp
  | case3 c cs hlead ih => rw [List.flatMap_cons, ih, Part.fill, List.singleton_append]

/-! ## Filling in -/

def values (username clientId : List Char) : Placeholder → List Char
  | .user => username
  | .client => clientId

def filled (username clientId : List Char) (ps : List Part) : List Char :=
  ps.flatMap (Part.fill (values username clientId))

section Filled

variable {u v c w : List Char} {ps qs : List Part}

@[simp] theorem filled_nil : filled u c [] = [] :=
  rfl

@[simp] theorem filled_cons (p : Part) :
    filled u c (p :: ps) = p.fill (values u c) ++ filled u c ps :=
  rfl

@[simp] theorem filled_append : filled u c (ps ++ qs) = filled u c ps ++ filled u c qs :=
  List.flatMap_append ..

theorem values_text : values userPlaceholder clientPlaceholder = Placeholder.text := by
  funext h
  cases h <;> rfl

theorem filled_parts (text : List Char) :
    filled userPlaceholder clientPlaceholder (parts text) = text := by
  rw [filled, values_text, flatMap_text_parts]

theorem Part.fill_eq_fill {p : Part} (hp : p ≠ .placeholder .client) :
    p.fill (values u c) = p.fill (values u w) := by
  cases p with
  | literal a => rfl
  | placeholder h =>
    cases h with
    | user => rfl
    | client => exact absurd rfl hp

/-- Where no client is named it makes no difference who that is. -/
theorem filled_eq_filled_of_notMem (h : .placeholder .client ∉ ps) :
    filled u c ps = filled u w ps := by
  induction ps with
  | nil => rfl
  | cons p ps ih =>
    obtain ⟨hp, hps⟩ := List.ne_and_not_mem_of_not_mem_cons h
    rw [filled_cons, filled_cons, ih hps, Part.fill_eq_fill hp.symm]

end Filled

/-! ## One placeholder after the other -/

section Substitute

variable {value : List Char}

theorem substitute_append_of_brace_notMem {h : Placeholder} {a : List Char} (ha : '{' ∉ a)
    (b : List Char) : substitute h.text value (a ++ b) = a ++ substitute h.text value b := by
  induction a with
  | nil => rfl
  | cons c a ih =>
    obtain ⟨hc, ha⟩ := List.ne_and_not_mem_of_not_mem_cons ha
    have hno : ¬ h.text.isPrefixOf (c :: (a ++ b)) = true := fun hstart =>
      not_isPrefix_of_ne_brace (Ne.symm hc) (List.isPrefixOf_iff_prefix.mp hstart)
    rw [List.cons_append, substitute, if_neg hno, ih ha, List.cons_append]

theorem substitute_text_append_self (h : Placeholder) (b : List Char) :
    substitute h.text value (h.text ++ b) = value ++ substitute h.text value b := by
  obtain ⟨body, hbody, -⟩ := h.text_eq_cons
  have hstart : h.text.isPrefixOf ('{' :: (body ++ b)) = true := by
    rw [List.isPrefixOf_iff_prefix, hbody]
    exact List.prefix_append _ b
  rw [hbody] at hstart ⊢
  rw [List.cons_append, substitute, if_pos hstart, List.length_cons, Nat.add_sub_cancel,
    List.drop_left]

/-- The other placeholder is left as it is. -/
theorem substitute_text_append_of_ne {g h : Placeholder} (hne : g ≠ h) (b : List Char) :
    substitute h.text value (g.text ++ b) = g.text ++ substitute h.text value b := by
  obtain ⟨body, hbody, hbrace⟩ := g.text_eq_cons
  have hno : ¬ h.text.isPrefixOf ('{' :: (body ++ b)) = true := fun hstart =>
    hne (Placeholder.eq_of_isPrefix (hbody ▸ List.prefix_append _ b)
      (List.isPrefixOf_iff_prefix.mp hstart))
  rw [hbody, List.cons_append, substitute, if_neg hno, substitute_append_of_brace_notMem hbrace,
    List.cons_append]

theorem substitute_eq_flatMap (h : Placeholder) (text : List Char) :
    substitute h.text value text =
      (parts text).flatMap (Part.fill fun g => if g = h then value else g.text) := by
  fun_induction parts text with
  | case1 => simp [substitute]
  | case2 c cs g hlead ih =>
    obtain ⟨rest, hrest⟩ := isPrefix_of_leading? hlead
    obtain ⟨body, hbody, -⟩ := g.text_eq_cons
    have hdrop : cs.drop (g.text.length - 1) = rest := by
      rw [hbody, List.cons_append] at hrest
      rw [← (List.cons.inj hrest).2, hbody, List.length_cons, Nat.add_sub_cancel, List.drop_left]
    rw [hdrop] at ih ⊢
    rw [← hrest, List.flatMap_cons, ← ih, Part.fill]
    by_cases hg : g = h
    · rw [hg, substitute_text_append_self, if_pos rfl]
    · rw [substitute_text_append_of_ne hg, if_neg hg]
  | case3 c cs hlead ih =>
    have hno : ¬ h.text.isPrefixOf (c :: cs) = true := fun hstart =>
      leading?_eq_none_iff.mp hlead h (List.isPrefixOf_iff_prefix.mp hstart)
    rw [substitute, if_neg hno, ih, List.flatMap_cons, Part.fill, List.singleton_append]

theorem substitute_user_eq (username text : List Char) :
    substitute userPlaceholder username text = filled username clientPlaceholder (parts text) := by
  have hvalues : (fun g => if g = .user then username else g.text) =
      values username clientPlaceholder := by
    funext g
    cases g <;> rfl
  rw [filled, ← hvalues]
  exact substitute_eq_flatMap .user text

theorem substitute_client_eq (clientId text : List Char) :
    substitute clientPlaceholder clientId text = filled userPlaceholder clientId (parts text) := by
  have hvalues : (fun g => if g = .client then clientId else g.text) =
      values userPlaceholder clientId := by
    funext g
    cases g <;> rfl
  rw [filled, ← hvalues]
  exact substitute_eq_flatMap .client text

end Substitute

/-! ## Telling client ids apart -/

section Spelled

variable {u v c w : List Char} {ps qs : List Part}

def apart (a b : List Char) : Nat :=
  (a.zip b).countP fun x => x.1 ≠ x.2

theorem apart_self (a : List Char) : apart a a = 0 := by
  induction a with
  | nil => rfl
  | cons x a ih => simpa [apart] using ih

theorem apart_append {a b : List Char} (hlength : a.length = b.length) (a' b' : List Char) :
    apart (a ++ a') (b ++ b') = apart a b + apart a' b' := by
  rw [apart, List.zip_append hlength, List.countP_append]
  rfl

theorem eq_of_apart_eq_zero {a b : List Char} (hlength : a.length = b.length)
    (h : apart a b = 0) : a = b := by
  induction a generalizing b with
  | nil => exact (List.length_eq_zero_iff.mp hlength.symm).symm
  | cons x a ih =>
    cases b with
    | nil => cases hlength
    | cons y b =>
      have hsplit := apart_append (a := [x]) (b := [y]) rfl a b
      rw [List.singleton_append, List.singleton_append, h, eq_comm, Nat.add_eq_zero_iff] at hsplit
      have hxy : x = y := by simpa [apart] using hsplit.1
      rw [hxy, ih (Nat.succ.inj hlength) hsplit.2]

/-- Another client id makes a difference in length at each place that names the client. -/
theorem length_filled (u c w : List Char) (ps : List Part) :
    (filled u c ps).length + ps.count (.placeholder .client) * w.length =
      (filled u w ps).length + ps.count (.placeholder .client) * c.length := by
  induction ps with
  | nil => simp
  | cons p ps ih =>
    rw [filled_cons, filled_cons, List.length_append, List.length_append]
    by_cases hp : p = .placeholder .client
    · rw [hp, List.count_cons_self, Nat.succ_mul, Nat.succ_mul]
      simp only [Part.fill, values]
      omega
    · rw [List.count_cons_of_ne hp, Part.fill_eq_fill (w := w) hp]
      omega

/-- One of the same length makes the same differences at each of them. -/
theorem apart_filled (u : List Char) (hlength : c.length = w.length) (ps : List Part) :
    apart (filled u c ps) (filled u w ps) = ps.count (.placeholder .client) * apart c w := by
  induction ps with
  | nil => simp [apart]
  | cons p ps ih =>
    rw [filled_cons, filled_cons]
    by_cases hp : p = .placeholder .client
    · rw [hp, List.count_cons_self, Nat.succ_mul, ← ih, Nat.add_comm]
      exact apart_append hlength ..
    · rw [List.count_cons_of_ne hp, Part.fill_eq_fill hp, apart_append rfl, apart_self, ih,
        Nat.zero_add]

theorem eq_of_mul_of_ne {m n a b x y : Nat} (hab : a ≠ b) (hm : x + m * a = y + m * b)
    (hn : x + n * a = y + n * b) : m = n := by
  have hm' : (x + m * a : Int) = y + m * b := by exact_mod_cast hm
  have hn' : (x + n * a : Int) = y + n * b := by exact_mod_cast hn
  have hzero : ((m : Int) - n) * (a - b) = 0 := by
    rw [Int.sub_mul, Int.mul_sub, Int.mul_sub]
    omega
  rcases Int.mul_eq_zero.mp hzero with h | h
  · omega
  · omega

/-- Two ways to read one text that stay one text for another client id name the client equally
often. -/
theorem count_eq_of_filled_eq (hc : c ≠ w) (hw : filled u w ps = filled v w qs)
    (h : filled u c ps = filled v c qs) :
    ps.count (.placeholder .client) = qs.count (.placeholder .client) := by
  by_cases hlength : c.length = w.length
  · have hps := apart_filled u hlength ps
    rw [h, hw, apart_filled v hlength qs] at hps
    have hpos : 0 < apart c w :=
      Nat.pos_of_ne_zero fun hzero => hc (eq_of_apart_eq_zero hlength hzero)
    exact (Nat.eq_of_mul_eq_mul_right hpos hps).symm
  · have hps := length_filled u c w ps
    rw [h, hw] at hps
    exact eq_of_mul_of_ne (Ne.symm hlength) hps (length_filled v c w qs)

/-! ## Placeholders that the username brings about -/

/-- The client is named at least where the template names it, before and behind the first place
that does. -/
theorem parts_filled_append_cons (u : List Char) (qs rest : List Part) :
    parts (filled u clientPlaceholder (qs ++ .placeholder .client :: rest)) =
      parts (filled u clientPlaceholder qs) ++
        .placeholder .client :: parts (filled u clientPlaceholder rest) := by
  rw [filled_append, filled_cons]
  exact parts_append_text_append _ .client _

/-- Parts that name no client, then such parts in front of a place that does. -/
theorem parts_induction {motive : List Part → Prop}
    (free : ∀ ps, .placeholder .client ∉ ps → motive ps)
    (named : ∀ qs rest, .placeholder .client ∉ qs → motive rest →
      motive (qs ++ .placeholder .client :: rest)) (ps : List Part) : motive ps := by
  by_cases hmem : .placeholder .client ∈ ps
  · obtain ⟨qs, rest, hps, hqs⟩ := List.eq_append_cons_of_mem hmem
    rw [hps]
    exact named qs rest hqs (parts_induction free named rest)
  · exact free ps hmem
  termination_by ps.length
  decreasing_by
    rw [hps, List.length_append, List.length_cons]
    omega

theorem count_le_count_parts (u : List Char) (ps : List Part) :
    ps.count (.placeholder .client) ≤
      (parts (filled u clientPlaceholder ps)).count (.placeholder .client) := by
  induction ps using parts_induction with
  | free ps hps =>
    rw [List.count_eq_zero.mpr hps]
    exact Nat.zero_le _
  | named qs rest hqs ih =>
    rw [parts_filled_append_cons, List.count_append, List.count_append, List.count_cons_self,
      List.count_cons_self, List.count_eq_zero.mpr hqs]
    omega

theorem filled_parts_of_notMem (hps : .placeholder .client ∉ ps)
    (hparts : .placeholder .client ∉ parts (filled u clientPlaceholder ps)) :
    filled userPlaceholder c (parts (filled u clientPlaceholder ps)) = filled u c ps := by
  rw [filled_eq_filled_of_notMem hparts, filled_parts, filled_eq_filled_of_notMem hps]

/-- If the username brings about no further places that name the client, those of the template are
filled in. -/
theorem filled_parts_of_count_eq (c : List Char)
    (h : (parts (filled u clientPlaceholder ps)).count (.placeholder .client) =
      ps.count (.placeholder .client)) :
    filled userPlaceholder c (parts (filled u clientPlaceholder ps)) = filled u c ps := by
  induction ps using parts_induction with
  | free ps hps =>
    rw [List.count_eq_zero.mpr hps, List.count_eq_zero] at h
    exact filled_parts_of_notMem hps h
  | named qs rest hqs ih =>
    rw [parts_filled_append_cons, List.count_append, List.count_append, List.count_cons_self,
      List.count_cons_self, List.count_eq_zero.mpr hqs] at h
    have hle := count_le_count_parts u rest
    have hfirst : .placeholder .client ∉ parts (filled u clientPlaceholder qs) :=
      List.count_eq_zero.mp (by omega)
    have hrest := ih (by omega)
    rw [parts_filled_append_cons, filled_append, filled_cons, filled_append, filled_cons, hrest,
      filled_parts_of_notMem hqs hfirst]
    rfl

/-! ## Usernames without braces -/

theorem parts_append_of_brace_notMem {a : List Char} (ha : '{' ∉ a) (b : List Char) :
    parts (a ++ b) = a.map .literal ++ parts b := by
  induction a with
  | nil => rfl
  | cons c a ih =>
    obtain ⟨hc, ha⟩ := List.ne_and_not_mem_of_not_mem_cons ha
    rw [List.cons_append, parts_cons_of_ne_brace (Ne.symm hc), ih ha, List.map_cons,
      List.cons_append]

theorem count_parts_of_brace_notMem (hu : '{' ∉ u) (hps : .literal '{' ∉ ps) :
    (parts (filled u clientPlaceholder ps)).count (.placeholder .client) =
      ps.count (.placeholder .client) := by
  induction ps with
  | nil => simp [parts]
  | cons p ps ih =>
    obtain ⟨hp, hps⟩ := List.ne_and_not_mem_of_not_mem_cons hps
    rw [filled_cons]
    by_cases hclient : p = .placeholder .client
    · rw [hclient, List.count_cons_self, ← ih hps]
      exact (congrArg _ (parts_text_append .client _)).trans List.count_cons_self
    · have hbrace : '{' ∉ p.fill (values u clientPlaceholder) := by
        cases p with
        | literal a => simpa [Part.fill] using hp
        | placeholder h =>
          cases h with
          | user => exact hu
          | client => exact absurd rfl hclient
      have hliteral : .placeholder .client ∉
          (p.fill (values u clientPlaceholder)).map Part.literal := by simp
      rw [parts_append_of_brace_notMem hbrace, List.count_append, List.count_eq_zero.mpr hliteral,
        Nat.zero_add, ih hps, List.count_cons_of_ne hclient]

end Spelled

/-! ## The whole template -/

/-- The template with the username and the client id filled in at once: what they say themselves is
not looked at again. -/
def renderAtOnce (scope : Scope) (username clientId : String) : String :=
  String.ofList (filled username.toList clientId.toList (parts scope.template.toList))

def clientPlaces (text : String) : Nat :=
  (parts text.toList).count (.placeholder .client)

theorem fill_eq_filled (scope : Scope) (username clientId : String) :
    scope.fill username clientId = filled userPlaceholder clientId.toList
      (parts (filled username.toList clientPlaceholder (parts scope.template.toList))) := by
  rw [fill, substitute_user_eq, substitute_client_eq]

theorem toList_renderAtOnce_clientPlaceholder (scope : Scope) (username : String) :
    (scope.renderAtOnce username "\x7bclient_id\x7d").toList =
      filled username.toList clientPlaceholder (parts scope.template.toList) :=
  String.toList_ofList ..

/-- Filling in the username and then the client id is filling in both at once exactly if the
username brings about no further place that names the client, or such a place is filled with itself.
So it is for every username without a brace in a template whose braces are those of placeholders. -/
theorem render_eq_renderAtOnce_iff (scope : Scope) (username clientId : String) :
    (scope.render username clientId = scope.renderAtOnce username clientId ↔
      clientPlaces (scope.renderAtOnce username "\x7bclient_id\x7d") =
        clientPlaces scope.template ∨ clientId = "\x7bclient_id\x7d") ∧
    ('{' ∉ username.toList → .literal '{' ∉ parts scope.template.toList →
      scope.render username clientId = scope.renderAtOnce username clientId) := by
  have hsame : scope.render username clientId = scope.renderAtOnce username clientId ↔
      filled userPlaceholder clientId.toList
          (parts (filled username.toList clientPlaceholder (parts scope.template.toList))) =
        filled username.toList clientId.toList (parts scope.template.toList) := by
    rw [render, renderAtOnce, String.ofList_inj, fill_eq_filled]
  rw [hsame, clientPlaces, clientPlaces, toList_renderAtOnce_clientPlaceholder]
  refine ⟨⟨fun h => ?_, ?_⟩, fun husername htemplate => ?_⟩
  · by_cases hclient : clientId.toList = clientPlaceholder
    · exact .inr (String.toList_injective hclient)
    · exact .inl (count_eq_of_filled_eq hclient (filled_parts _) h)
  · rintro (hcount | rfl)
    · exact filled_parts_of_count_eq _ hcount
    · exact filled_parts _
  · exact filled_parts_of_count_eq _ (count_parts_of_brace_notMem husername htemplate)

theorem tenant_rendered_at_once :
    '{' ∉ "acme".toList ∧ .literal '{' ∉ parts "tenants/\x7busername\x7d".toList ∧
    (Scope.mk "tenants/\x7busername\x7d").render "acme" "dev-1" =
      (Scope.mk "tenants/\x7busername\x7d").renderAtOnce "acme" "dev-1" := by
  have husername : '{' ∉ "acme".toList := by decide +kernel
  have htemplate : .literal '{' ∉ parts "tenants/\x7busername\x7d".toList := by decide +kernel
  exact ⟨husername, htemplate, (render_eq_renderAtOnce_iff _ _ _).2 husername htemplate⟩

/-- A username that spells the other placeholder is replaced by the client id, and so is one that
completes it. -/
theorem username_taken_for_placeholder :
    ((Scope.mk "tenants/\x7busername\x7d").render "\x7bclient_id\x7d" "acme" = "tenants/acme" ∧
      (Scope.mk "tenants/\x7busername\x7d").renderAtOnce "\x7bclient_id\x7d" "acme" =
        "tenants/\x7bclient_id\x7d") ∧
    (Scope.mk "\x7bclient\x7busername\x7d\x7d").render "_id" "acme" = "acme" ∧
    (Scope.mk "\x7bclient\x7busername\x7d\x7d").renderAtOnce "_id" "acme" =
      "\x7bclient_id\x7d" := by
  decide +kernel

end MqttGateway.Scope
