import Mathlib.Data.List.Induction
import MqttGateway.Access.Decision
import MqttGateway.Proofs.Checks
/-!
# The rule that decides

An access list keeps its rules by falling priority and rules of one priority in their configured
order, so that the first one that applies prevails over all others that do. Main statement: what a
session may do is decided by the configured rule that prevails, and by nothing else; the order of
rules with different priorities does not matter.
-/
namespace MqttGateway.Access

/-! ## What a session attempts -/

inductive Attempt
  | connect
  | publish (topic : String)
  | subscribe (filter : String)
  deriving DecidableEq, Repr

namespace Attempt

def action : Attempt → Action
  | .connect => .connect
  | .publish _ => .publish
  | .subscribe _ => .subscribe

def topic? : Attempt → Option String
  | .connect => none
  | .publish topic => some topic
  | .subscribe filter => some filter

/-- What is decided about an attempt that no rule concerns. -/
def usual (s : Settings.Acl) : Attempt → Verdict
  | .connect => .allow
  | _ => s.defaultVerdict

end Attempt

def AccessList.answer (l : AccessList) (s : Session) : Attempt → Decision
  | .connect => l.decideConnect s
  | .publish topic => l.decidePublish s topic
  | .subscribe filter => l.decideSubscribe s filter

namespace Rule

def IsFor (r : Rule) (s : Session) : Prop :=
  ∃ c, CompiledRule.ofRule r = .ok c ∧ c.fitsSession s = true

def IsAbout (r : Rule) (action : Action) (topic : String) : Prop :=
  (r.actions = [] ∨ action ∈ r.actions) ∧ ∃ p ∈ r.topics, Topic.isCovered topic p = true

/-- The rule is about what a session attempts. Rules about connecting have to say so, and their
topics do not count. -/
def Concerns (r : Rule) (s : Session) : Attempt → Prop
  | .connect => r.IsFor s ∧ .connect ∈ r.actions
  | .publish topic => r.IsFor s ∧ r.IsAbout .publish topic
  | .subscribe filter => r.IsFor s ∧ r.IsAbout .subscribe filter

/-- Of the rules with some property `r` has the greatest priority, and of those that have it too it
comes first. -/
structure Prevails (property : Rule → Prop) (rules : List Rule) (r : Rule) : Prop where
  holds : property r
  first : ∃ before after, rules = before ++ r :: after ∧
    (∀ q ∈ before, property q → q.priority < r.priority) ∧
    ∀ q ∈ after, property q → q.priority ≤ r.priority

end Rule

inductive Decides (settings : Settings.Acl) (s : Session) (a : Attempt) : Decision → Prop
  | disabled : settings.enabled = false → Decides settings s a .disabled
  | byRule {r : Rule} : settings.enabled = true →
      r.Prevails (fun q => q.Concerns s a) settings.rules →
      Decides settings s a (.byRule r.name r.verdict)
  | byDefault : settings.enabled = true → (∀ r ∈ settings.rules, ¬ r.Concerns s a) →
      Decides settings s a (.byDefault (a.usual settings))

/-! ## Compiled rules -/

namespace CompiledRule

theorem ofRule_eq_ok_iff {r : Rule} {c : CompiledRule} : ofRule r = .ok c ↔
    ∃ username clientId commonName network,
      compilePattern r.conditions.username r.conditions.usernamePattern = .ok username ∧
      compilePattern r.conditions.clientId r.conditions.clientIdPattern = .ok clientId ∧
      compilePattern r.conditions.commonName r.conditions.commonNamePattern = .ok commonName ∧
      compileNetwork r.conditions.clientAddress = some network ∧
      c = ⟨r, username, clientId, commonName, network⟩ := by
  simp only [ofRule, bind_eq_ok_iff, mapError_eq_ok_iff]
  constructor
  · rintro ⟨username, husername, clientId, hclientId, commonName, hcommonName, h⟩
    split at h
    case h_1 network hnetwork =>
      exact ⟨username, clientId, commonName, network, husername, hclientId, hcommonName, hnetwork,
        (pure_eq_ok_iff.mp h).symm⟩
    case h_2 => cases h
  · rintro ⟨username, clientId, commonName, network, husername, hclientId, hcommonName, hnetwork,
      rfl⟩
    refine ⟨username, husername, clientId, hclientId, commonName, hcommonName, ?_⟩
    rw [hnetwork]
    rfl

theorem rule_of_ofRule {r : Rule} {c : CompiledRule} (h : ofRule r = .ok c) : c.rule = r := by
  obtain ⟨_, _, _, _, -, -, -, -, rfl⟩ := ofRule_eq_ok_iff.mp h
  rfl

theorem applies_iff {c : CompiledRule} (hc : ofRule c.rule = .ok c) (s : Session) (a : Attempt) :
    c.applies s a.action a.topic? = true ↔ c.rule.Concerns s a := by
  have hfor : c.rule.IsFor s ↔ c.fitsSession s = true :=
    ⟨fun ⟨_, hcompiled, hfits⟩ => Except.ok.inj (hc.symm.trans hcompiled) ▸ hfits,
      fun hfits => ⟨c, hc, hfits⟩⟩
  cases a <;>
    simp [applies, Rule.Concerns, hfor, Attempt.action, Attempt.topic?, fitsAction, fitsTopic,
      Rule.IsAbout, and_assoc]

/-- Compiled rules are told apart by the rules that they were compiled from. -/
theorem eq_of_map_rule {cs ds : List CompiledRule} (hcs : ∀ c ∈ cs, ofRule c.rule = .ok c)
    (hds : ∀ d ∈ ds, ofRule d.rule = .ok d) (h : cs.map (·.rule) = ds.map (·.rule)) : cs = ds := by
  have hok : cs.map (Except.ok : CompiledRule → Except RuleFault CompiledRule) = ds.map .ok := by
    rw [← List.map_congr_left hcs, ← List.map_congr_left hds]
    have hrules := congrArg (List.map ofRule) h
    rwa [List.map_map, List.map_map] at hrules
  exact List.map_injective_iff.mpr (fun _ _ => Except.ok.inj) hok

end CompiledRule

namespace AccessList

open CompiledRule (ofRule)

theorem mapM_ofRule_eq_ok_iff {rules : List Rule} {cs : List CompiledRule} :
    rules.mapM ofRule = .ok cs ↔ cs.map (·.rule) = rules ∧ ∀ c ∈ cs, ofRule c.rule = .ok c := by
  rw [mapM_eq_ok_iff]
  constructor
  · intro h
    induction h with
    | nil => exact ⟨rfl, fun _ => nofun⟩
    | @cons r c rules cs hc _ ih =>
      obtain rfl := CompiledRule.rule_of_ofRule hc
      obtain ⟨rfl, hcs⟩ := ih
      exact ⟨rfl, List.forall_mem_cons.mpr ⟨hc, hcs⟩⟩
  · rintro ⟨rfl, hcs⟩
    exact List.forall₂_map_left_iff.mpr (List.forall₂_same.mpr hcs)

theorem ofSettings_eq_ok_iff {settings : Settings.Acl} {l : AccessList} :
    ofSettings settings = .ok l ↔ ∃ cs, settings.rules.mapM ofRule = .ok cs ∧
      l = ⟨settings.enabled, settings.defaultVerdict, sorted cs⟩ := by
  rw [ofSettings, bind_eq_ok_iff]
  exact exists_congr fun cs => and_congr_right fun _ => pure_eq_ok_iff.trans eq_comm

/-! ## Sorting by priority -/

section Sorting

variable {c : CompiledRule} {cs ds : List CompiledRule}

theorem sorted_concat (cs : List CompiledRule) (c : CompiledRule) :
    sorted (cs ++ [c]) = insert c (sorted cs) := by
  simp [sorted, List.foldl_append]

theorem mem_insert {d : CompiledRule} : d ∈ insert c cs ↔ d = c ∨ d ∈ cs := by
  induction cs with
  | nil => simp [insert]
  | cons q cs ih =>
    rw [insert]
    split
    · simp
    · simp [ih, or_left_comm]

theorem mem_sorted {d : CompiledRule} : d ∈ sorted cs ↔ d ∈ cs := by
  induction cs using List.reverseRecOn with
  | nil => simp [sorted]
  | append_singleton cs c ih => simp [sorted_concat, mem_insert, ih, or_comm]

def IsFalling (cs : List CompiledRule) : Prop :=
  cs.Pairwise fun c d => d.rule.priority ≤ c.rule.priority

theorem IsFalling.insert (h : IsFalling cs) (c : CompiledRule) : IsFalling (insert c cs) := by
  induction cs with
  | nil => exact List.pairwise_singleton _ _
  | cons q cs ih =>
    obtain ⟨hq, hcs⟩ := List.pairwise_cons.mp h
    rw [AccessList.insert]
    split
    case isTrue hlt =>
      refine List.pairwise_cons.mpr ⟨fun d hd => ?_, h⟩
      rcases List.mem_cons.mp hd with rfl | hd
      · exact Int32.le_of_lt hlt
      · exact Int32.le_trans (hq d hd) (Int32.le_of_lt hlt)
    case isFalse hnot =>
      refine List.pairwise_cons.mpr ⟨fun d hd => ?_, ih hcs⟩
      rcases mem_insert.mp hd with rfl | hd
      · exact Int32.not_lt.mp hnot
      · exact hq d hd

theorem sorted_isFalling (cs : List CompiledRule) : IsFalling (sorted cs) := by
  induction cs using List.reverseRecOn with
  | nil => exact .nil
  | append_singleton cs c ih => exact sorted_concat cs c ▸ ih.insert c

def atPriority (k : Int32) (cs : List CompiledRule) : List CompiledRule :=
  cs.filter (·.rule.priority == k)

@[simp] theorem mem_atPriority {k : Int32} {d : CompiledRule} :
    d ∈ atPriority k cs ↔ d ∈ cs ∧ d.rule.priority = k := by
  simp [atPriority]

theorem atPriority_append (k : Int32) (cs ds : List CompiledRule) :
    atPriority k (cs ++ ds) = atPriority k cs ++ atPriority k ds :=
  List.filter_append ..

theorem atPriority_cons_of_eq {k : Int32} (h : c.rule.priority = k) (cs : List CompiledRule) :
    atPriority k (c :: cs) = c :: atPriority k cs :=
  List.filter_cons_of_pos (beq_iff_eq.mpr h)

theorem atPriority_cons_of_ne {k : Int32} (h : c.rule.priority ≠ k) (cs : List CompiledRule) :
    atPriority k (c :: cs) = atPriority k cs :=
  List.filter_cons_of_neg (by simpa using h)

theorem IsFalling.priority_le_head {q d : CompiledRule} (h : IsFalling (q :: cs))
    (hd : d ∈ q :: cs) : d.rule.priority ≤ q.rule.priority := by
  rcases List.mem_cons.mp hd with rfl | hd
  · exact Int32.le_refl _
  · exact (List.pairwise_cons.mp h).1 d hd

theorem atPriority_insert (h : IsFalling cs) (k : Int32) :
    atPriority k (insert c cs) = atPriority k (cs ++ [c]) := by
  induction cs with
  | nil => rfl
  | cons q cs ih =>
    rw [insert]
    split
    case isTrue hlt =>
      by_cases hk : c.rule.priority = k
      · -- all rules that `c` is put in front of have less priority
        have hnone : atPriority k (q :: cs) = [] := by
          refine List.eq_nil_iff_forall_not_mem.mpr fun d hd => ?_
          obtain ⟨hd, heq⟩ := mem_atPriority.mp hd
          have hle := h.priority_le_head hd
          rw [heq, ← hk] at hle
          exact Int32.not_lt.mpr hle hlt
        rw [atPriority_cons_of_eq hk, atPriority_append, hnone, atPriority_cons_of_eq hk]
        rfl
      · rw [atPriority_cons_of_ne hk, atPriority_append, atPriority_cons_of_ne hk]
        exact (List.append_nil _).symm
    case isFalse =>
      have hrest := ih (List.pairwise_cons.mp h).2
      by_cases hk : q.rule.priority = k
      · rw [List.cons_append, atPriority_cons_of_eq hk, atPriority_cons_of_eq hk, hrest]
      · rw [List.cons_append, atPriority_cons_of_ne hk, atPriority_cons_of_ne hk, hrest]

/-- Rules of one priority stay in their order. -/
theorem atPriority_sorted (cs : List CompiledRule) (k : Int32) :
    atPriority k (sorted cs) = atPriority k cs := by
  induction cs using List.reverseRecOn with
  | nil => rfl
  | append_singleton cs c ih =>
    rw [sorted_concat, atPriority_insert (sorted_isFalling cs), atPriority_append, ih,
      atPriority_append]

/-- Rules in falling order are determined by the rules of each priority. -/
theorem IsFalling.eq_of_atPriority (hcs : IsFalling cs) (hds : IsFalling ds)
    (h : ∀ k, atPriority k cs = atPriority k ds) : cs = ds := by
  induction cs generalizing ds with
  | nil =>
    refine (List.eq_nil_iff_forall_not_mem.mpr fun d hd => ?_).symm
    have hmem : d ∈ atPriority d.rule.priority [] := h _ ▸ mem_atPriority.mpr ⟨hd, rfl⟩
    cases hmem
  | cons c cs ih =>
    have hmem : c ∈ atPriority c.rule.priority ds :=
      h _ ▸ mem_atPriority.mpr ⟨List.mem_cons_self, rfl⟩
    cases ds with
    | nil => cases hmem
    | cons d ds =>
      have hback : d ∈ atPriority d.rule.priority (c :: cs) :=
        h _ ▸ mem_atPriority.mpr ⟨List.mem_cons_self, rfl⟩
      have hsame : c.rule.priority = d.rule.priority :=
        Int32.le_antisymm (hds.priority_le_head (mem_atPriority.mp hmem).1)
          (hcs.priority_le_head (mem_atPriority.mp hback).1)
      have hheads := h c.rule.priority
      rw [atPriority_cons_of_eq rfl, atPriority_cons_of_eq hsame.symm] at hheads
      obtain rfl : c = d := (List.cons.inj hheads).1
      refine congrArg _ (ih (List.pairwise_cons.mp hcs).2 (List.pairwise_cons.mp hds).2 fun k => ?_)
      have hk := h k
      by_cases hck : c.rule.priority = k
      · rw [atPriority_cons_of_eq hck, atPriority_cons_of_eq hck] at hk
        exact (List.cons.inj hk).2
      · rwa [atPriority_cons_of_ne hck, atPriority_cons_of_ne hck] at hk

theorem sorted_eq_of_atPriority (h : ∀ k, atPriority k cs = atPriority k ds) :
    sorted cs = sorted ds := by
  refine (sorted_isFalling cs).eq_of_atPriority (sorted_isFalling ds) fun k => ?_
  rw [atPriority_sorted, atPriority_sorted, h]

/-- The first rule in falling order that has some property has the greatest priority of those that
do, and it is the first of them with that priority. -/
theorem prevails_of_find?_sorted {p : CompiledRule → Bool} (h : (sorted cs).find? p = some c) :
    ∃ before after, cs = before ++ c :: after ∧
      (∀ d ∈ before, p d = true → d.rule.priority < c.rule.priority) ∧
      ∀ d ∈ after, p d = true → d.rule.priority ≤ c.rule.priority := by
  obtain ⟨hc, front, back, hsorted, hfront⟩ := List.find?_eq_some_iff_append.mp h
  have hfalling : IsFalling (c :: back) := by
    have hall := sorted_isFalling cs
    rw [hsorted] at hall
    exact (List.pairwise_append.mp hall).2.1
  have hgreatest : ∀ d ∈ cs, p d = true → d.rule.priority ≤ c.rule.priority := by
    intro d hd hpd
    rw [← mem_sorted, hsorted] at hd
    rcases List.mem_append.mp hd with hd | hd
    · have hnot := hfront d hd
      rw [hpd] at hnot
      cases hnot
    · exact hfalling.priority_le_head hd
  have hfirst : (atPriority c.rule.priority cs).find? p = some c := by
    rw [← atPriority_sorted, hsorted, atPriority_append, atPriority_cons_of_eq rfl]
    exact List.find?_eq_some_iff_append.mpr
      ⟨hc, _, _, rfl, fun d hd => hfront d (mem_atPriority.mp hd).1⟩
  rw [atPriority, List.find?_filter, List.find?_eq_some_iff_append] at hfirst
  obtain ⟨-, before, after, rfl, hbefore⟩ := hfirst
  refine ⟨before, after, rfl, fun d hd hpd => ?_, fun d hd => ?_⟩
  · refine Int32.lt_of_le_of_ne (hgreatest d (List.mem_append_left _ hd) hpd) fun heq => ?_
    simpa [heq, hpd] using hbefore d hd
  · exact hgreatest d (List.mem_append_right _ (List.mem_cons_of_mem _ hd))

end Sorting

end AccessList

/-! ## Decisions -/

namespace Rule

variable {property : Rule → Prop} {rules : List Rule} {r r' : Rule}

theorem Prevails.mem (h : r.Prevails property rules) : r ∈ rules := by
  obtain ⟨before, after, rfl, -⟩ := h.first
  exact List.mem_append_right _ List.mem_cons_self

/-- No rule after `r` has more priority than all between them, `r` itself among these. -/
theorem eq_of_cons_eq_append {between after after' : List Rule} (hr : property r)
    (hr' : property r') (hafter : ∀ q ∈ after, property q → q.priority ≤ r.priority)
    (hbetween : ∀ q ∈ between, property q → q.priority < r'.priority)
    (h : r :: after = between ++ r' :: after') : r = r' := by
  cases between with
  | nil => exact (List.cons.inj h).1
  | cons q between =>
    obtain ⟨rfl, rfl⟩ := List.cons.inj h
    have hless := hbetween r List.mem_cons_self hr
    have hle := hafter r' (List.mem_append_right _ List.mem_cons_self) hr'
    exact absurd hless (Int32.not_lt.mpr hle)

theorem Prevails.unique (h : r.Prevails property rules) (h' : r'.Prevails property rules) :
    r = r' := by
  obtain ⟨hr, before, after, hsplit, hbefore, hafter⟩ := h
  obtain ⟨hr', before', after', hsplit', hbefore', hafter'⟩ := h'
  rcases List.append_eq_append_iff.mp (hsplit.symm.trans hsplit') with
    ⟨between, rfl, hback⟩ | ⟨between, rfl, hback⟩
  · exact eq_of_cons_eq_append hr hr' hafter
      (fun q hq => hbefore' q (List.mem_append_right _ hq)) hback
  · exact (eq_of_cons_eq_append hr' hr hafter'
      (fun q hq => hbefore q (List.mem_append_right _ hq)) hback).symm

end Rule

theorem Decides.unique {settings : Settings.Acl} {s : Session} {a : Attempt} {d d' : Decision}
    (h : Decides settings s a d) (h' : Decides settings s a d') : d = d' := by
  cases h with
  | disabled hoff =>
    cases h' with
    | disabled => rfl
    | byRule hon | byDefault hon => cases hoff.symm.trans hon
  | byRule hon hr =>
    cases h' with
    | disabled hoff => cases hoff.symm.trans hon
    | byRule _ hr' => rw [hr.unique hr']
    | byDefault _ hnone => exact absurd hr.holds (hnone _ hr.mem)
  | byDefault hon hnone =>
    cases h' with
    | disabled hoff => cases hoff.symm.trans hon
    | byRule _ hr => exact absurd hr.holds (hnone _ hr.mem)
    | byDefault => rfl

namespace AccessList

variable {settings : Settings.Acl} {l : AccessList}

theorem answer_eq (l : AccessList) (s : Session) (a : Attempt) :
    l.answer s a = l.decide s a.action a.topic? := by
  cases a <;> rfl

theorem decides_answer (h : ofSettings settings = .ok l) (s : Session) (a : Attempt) :
    Decides settings s a (l.answer s a) := by
  obtain ⟨cs, hcs, rfl⟩ := ofSettings_eq_ok_iff.mp h
  obtain ⟨hrules, hcompiled⟩ := mapM_ofRule_eq_ok_iff.mp hcs
  rw [answer_eq, decide]
  cases hon : settings.enabled with
  | false => exact .disabled hon
  | true =>
    have happlies (c : CompiledRule) (hc : c ∈ cs) :
        c.applies s a.action a.topic? = true ↔ c.rule.Concerns s a :=
      CompiledRule.applies_iff (hcompiled c hc) s a
    cases hfind : (sorted cs).find? (·.applies s a.action a.topic?) with
    | none =>
      have hnone : ∀ r ∈ settings.rules, ¬ r.Concerns s a := by
        rw [← hrules]
        intro r hr hconcerns
        obtain ⟨c, hc, rfl⟩ := List.mem_map.mp hr
        exact List.find?_eq_none.mp hfind c (mem_sorted.mpr hc) ((happlies c hc).mpr hconcerns)
      have hdefault := Decides.byDefault hon hnone
      cases a <;> exact hdefault
    | some c =>
      have hc : c ∈ cs := mem_sorted.mp (List.mem_of_find?_eq_some hfind)
      obtain ⟨before, after, hsplit, hbefore, hafter⟩ := prevails_of_find?_sorted hfind
      have hconcerns := (happlies c hc).mp (List.find?_some hfind :)
      refine .byRule hon ⟨hconcerns, before.map (·.rule),
        after.map (·.rule), by rw [← hrules, hsplit]; simp, ?_, ?_⟩
      · rintro r hr hconcerns
        obtain ⟨d, hd, rfl⟩ := List.mem_map.mp hr
        exact hbefore d hd ((happlies d (hsplit ▸ by simp [hd])).mpr hconcerns)
      · rintro r hr hconcerns
        obtain ⟨d, hd, rfl⟩ := List.mem_map.mp hr
        exact hafter d hd ((happlies d (hsplit ▸ by simp [hd])).mpr hconcerns)

/-! ## The order of the rules -/

/-- The same rules, those of one priority in the same order. -/
def SameUpToPriority (rules rules' : List Rule) : Prop :=
  ∀ k, rules'.filter (·.priority == k) = rules.filter (·.priority == k)

theorem atPriority_map_rule (k : Int32) (cs : List CompiledRule) :
    (atPriority k cs).map (·.rule) = (cs.map (·.rule)).filter (·.priority == k) := by
  rw [List.filter_map]
  rfl

theorem ofSettings_of_sameUpToPriority (h : ofSettings settings = .ok l) {rules : List Rule}
    (hrules : SameUpToPriority settings.rules rules) :
    ofSettings { settings with rules } = .ok l := by
  obtain ⟨cs, hcs, rfl⟩ := ofSettings_eq_ok_iff.mp h
  obtain ⟨hmap, hcompiled⟩ := mapM_ofRule_eq_ok_iff.mp hcs
  have hmem {r : Rule} (hr : r ∈ rules) : r ∈ settings.rules := by
    have hfilter : r ∈ rules.filter (·.priority == r.priority) := List.mem_filter.mpr ⟨hr, by simp⟩
    rw [hrules] at hfilter
    exact (List.mem_filter.mp hfilter).1
  obtain ⟨ds, hds⟩ : ∃ ds, rules.mapM CompiledRule.ofRule = .ok ds := by
    refine exists_mapM_eq_ok fun r hr => ?_
    obtain ⟨c, hc, rfl⟩ := List.mem_map.mp (hmap ▸ hmem hr)
    exact ⟨c, hcompiled c hc⟩
  obtain ⟨hmap', hcompiled'⟩ := mapM_ofRule_eq_ok_iff.mp hds
  refine ofSettings_eq_ok_iff.mpr ⟨ds, hds, ?_⟩
  rw [sorted_eq_of_atPriority fun k => ?_]
  refine CompiledRule.eq_of_map_rule (fun c hc => hcompiled c (mem_atPriority.mp hc).1)
    (fun d hd => hcompiled' d (mem_atPriority.mp hd).1) ?_
  rw [atPriority_map_rule, atPriority_map_rule, hmap, hmap', hrules k]

/-- Rules of different priorities may stand in any order. -/
theorem sameUpToPriority_of_perm {rules rules' : List Rule} (h : rules'.Perm rules)
    (hdistinct : rules.Pairwise fun q r => q.priority ≠ r.priority) :
    SameUpToPriority rules rules' := by
  intro k
  have hperm := h.filter (·.priority == k)
  have hpairwise := hdistinct.filter (·.priority == k)
  have hk : ∀ r ∈ rules.filter (·.priority == k), r.priority = k :=
    fun r hr => beq_iff_eq.mp (List.mem_filter.mp hr).2
  match hrules : rules.filter (·.priority == k) with
  | [] =>
    rw [hrules] at hperm ⊢
    exact List.perm_nil.mp hperm
  | [r] =>
    rw [hrules] at hperm ⊢
    exact List.perm_singleton.mp hperm
  | q :: r :: rest =>
    rw [hrules] at hpairwise hk
    have hne := (List.pairwise_cons.mp hpairwise).1 r List.mem_cons_self
    exact absurd ((hk q (by simp)).trans (hk r (by simp)).symm) hne

/-- A compiled access list decides as its settings do, whose rules count by their priority and then
by their order. Rules of different priorities may change places. -/
theorem decides_by_priority (h : ofSettings settings = .ok l) :
    (∀ s a d, l.answer s a = d ↔ Decides settings s a d) ∧
    (settings.enabled = false → ∀ s a, (l.answer s a).isAllowed = true) ∧
    (∀ rules, SameUpToPriority settings.rules rules →
      ofSettings { settings with rules } = .ok l) ∧
    ∀ rules, rules.Perm settings.rules →
      settings.rules.Pairwise (fun q r => q.priority ≠ r.priority) →
      ofSettings { settings with rules } = .ok l := by
  refine ⟨fun s a d => ⟨?_, ?_⟩, fun hoff s a => ?_, fun rules hrules => ?_,
    fun rules hperm hdistinct => ?_⟩
  · rintro rfl
    exact decides_answer h s a
  · exact (decides_answer h s a).unique
  · rw [(decides_answer h s a).unique (.disabled hoff)]
    rfl
  · exact ofSettings_of_sameUpToPriority h hrules
  · exact ofSettings_of_sameUpToPriority h (sameUpToPriority_of_perm hperm hdistinct)

def broad : List Rule := [
  { name := "early", topics := ["a/#"], verdict := .allow, priority := -1 },
  { name := "late", topics := ["a/b"], verdict := .deny, priority := -1 }]

def urgent : Rule :=
  { name := "urgent", topics := ["a/c"], actions := [.publish], verdict := .deny, priority := 2 }

/-- The early rule decides about `a/b`, the urgent one about what is published to `a/c`, and the
list is the same with the urgent rule in front. -/
theorem decides_by_urgent : ∃ l, ofSettings ⟨true, .deny, broad ++ [urgent]⟩ = .ok l ∧
    l.answer {} (.publish "a/b") = .byRule "early" .allow ∧
    Decides ⟨true, .deny, broad ++ [urgent]⟩ {} (.publish "a/c") (.byRule "urgent" .deny) ∧
    Decides ⟨true, .deny, broad ++ [urgent]⟩ {} .connect (.byDefault .allow) ∧
    ofSettings ⟨true, .deny, urgent :: broad⟩ = .ok l := by
  have hl : ofSettings ⟨true, .deny, broad ++ [urgent]⟩ = .ok ⟨true, .deny,
      (urgent :: broad).map fun r => ⟨r, none, none, none, none⟩⟩ := rfl
  obtain ⟨hdecides, -, horder, -⟩ := decides_by_priority hl
  refine ⟨_, hl, by decide +kernel, (hdecides ..).mp (by decide +kernel),
    (hdecides ..).mp (by decide +kernel), horder _ fun k => ?_⟩
  rw [List.filter_append, List.filter_cons]
  by_cases hk : urgent.priority = k
  · subst hk
    rfl
  · have hnot : (urgent.priority == k) = false := by simpa using hk
    simp [hnot]

end AccessList
end MqttGateway.Access
