import MqttGateway.Access.Decision
import MqttGateway.Proofs.Topic.Inclusion
/-!
# What a rule grants with a filter

A rule looks at a filter as it looks at a name. Main statement: a rule that allows a filter allows
no more with it than its own patterns cover exactly if they cover the filter with its `#` written
out. A filter without `#` is always so; one with `#` is not if the pattern that covers it has a `+`
there.
-/
namespace MqttGateway.Access

namespace AccessList

variable {l : AccessList} {s : Session}

/-- A rule decides exactly if it is the first that applies. -/
theorem decide_eq_byRule_iff {action : Action} {topic : Option String} {name : String}
    {verdict : Verdict} : l.decide s action topic = .byRule name verdict ↔
      l.enabled = true ∧ ∃ r, l.rules.find? (·.applies s action topic) = some r ∧
        r.rule.name = name ∧ r.rule.verdict = verdict := by
  unfold decide
  cases l.enabled with
  | false => simp
  | true =>
    cases l.rules.find? (·.applies s action topic) with
    | none => simp
    | some r => simp

theorem exists_pattern_of_applies {r : CompiledRule} {action : Action} {topic : String}
    (h : r.applies s action (some topic) = true) :
    ∃ p ∈ r.rule.topics, Topic.isCovered topic p = true := by
  rw [CompiledRule.applies, Bool.and_eq_true] at h
  exact List.any_eq_true.mp h.2

/-- What a rule grants with a filter stays within its patterns exactly if these cover the filter
with its `#` written out, and within the one that covers the filter exactly if that has no `+` for
the `#`. -/
theorem grants_within_iff {filter name : String} (hfilter : Topic.isFilter filter = true)
    (h : l.decideSubscribe s filter = .byRule name .allow) :
    ∃ r, l.rules.find? (·.applies s .subscribe (some filter)) = some r ∧
      r.rule.name = name ∧ r.rule.verdict = .allow ∧
      (∃ p ∈ r.rule.topics, Topic.isCovered filter p = true) ∧
      (['#'] ∉ Topic.levels filter → Topic.Within filter r.rule.topics) ∧
      (Topic.Within filter r.rule.topics ↔ ∀ narrowed, Topic.WritesOut narrowed filter →
        ∃ p ∈ r.rule.topics, Topic.isCovered narrowed p = true) ∧
      (Topic.Within filter r.rule.topics ↔ ∀ topic, Topic.isName topic = true →
        Topic.isCovered topic filter = true → ∃ p ∈ r.rule.topics, Topic.isCovered topic p = true) ∧
      ∀ p ∈ r.rule.topics, Topic.isCovered filter p = true →
        ((∀ topic, Topic.isCovered topic filter = true → Topic.isCovered topic p = true) ↔
          ¬ Topic.Overreaches filter p) := by
  obtain ⟨-, r, hr, hname, hverdict⟩ := decide_eq_byRule_iff.mp h
  have happlies := List.find?_some hr
  obtain ⟨p, hp, hcovered⟩ := exists_pattern_of_applies happlies
  exact ⟨r, hr, hname, hverdict, ⟨p, hp, hcovered⟩,
    fun hhash => Topic.within_of_hash_notMem hhash hp hcovered,
    Topic.within_iff_written hfilter _, Topic.within_iff_names hfilter _,
    fun _ _ => Topic.covers_all_iff hfilter⟩

def oneLevel : AccessList where
  enabled := true
  defaultVerdict := .deny
  rules := [⟨⟨"one-level", {}, ["a/+"], [.subscribe], .allow, 0⟩, none, none, none, none⟩]

theorem grants_one_level :
    Topic.isFilter "a/+" = true ∧
    oneLevel.decideSubscribe {} "a/+" = .byRule "one-level" .allow ∧
    ∀ topic, Topic.isCovered topic "a/+" = true → ∃ r ∈ oneLevel.rules,
      ∃ p ∈ r.rule.topics, Topic.isCovered topic p = true := by
  have hfilter : Topic.isFilter "a/+" = true := by decide +kernel
  have hgranted : oneLevel.decideSubscribe {} "a/+" = .byRule "one-level" .allow := by
    decide +kernel
  obtain ⟨r, hr, -, -, -, hwithin, -⟩ := grants_within_iff hfilter hgranted
  refine ⟨hfilter, hgranted, fun topic htopic => ⟨r, List.mem_of_find?_eq_some hr, ?_⟩⟩
  exact hwithin (by decide +kernel) topic htopic

/-- The rule for one level below `a` allows the filter for all of `a`, and with it topics that the
rule does not cover and that the list denies by themselves. -/
theorem one_level_grants_all :
    (AccessList.ofSettings ⟨true, .deny,
      [⟨"one-level", {}, ["a/+"], [.subscribe], .allow, 0⟩]⟩).toOption = some oneLevel ∧
    Topic.isFilter "a/#" = true ∧
    oneLevel.decideSubscribe {} "a/#" = .byRule "one-level" .allow ∧
    ∀ topic ∈ ["a", "a/b/c"], Topic.isName topic = true ∧ Topic.isCovered topic "a/#" = true ∧
      Topic.isCovered topic "a/+" = false ∧
      oneLevel.decideSubscribe {} topic = .byDefault .deny :=
  ⟨rfl, by decide +kernel, by decide +kernel, by decide +kernel⟩

end AccessList
end MqttGateway.Access
