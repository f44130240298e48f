import MqttGateway.Policy
import MqttGateway.Proofs.Checks
import MqttGateway.Proofs.Topic.Inclusion
import MqttGateway.Proofs.Topic.Scopes
/-!
# What a session may subscribe to and what is delivered to it

A delivery is let through if its topic could be subscribed to. Filters have no empty levels, but
wildcards cover topics that do: a filter covers no such topic exactly if it is `+` or has no
wildcard.
-/
namespace MqttGateway

namespace Topic

def isPublishable (topic : String) : Bool :=
  topic ≠ "" && !topic.toList.contains '+' && !topic.toList.contains '#'

theorem isPublishable_iff {topic : String} : isPublishable topic = true ↔
    topic ≠ "" ∧ ∀ level ∈ levels topic, '+' ∉ level ∧ '#' ∉ level := by
  have hmem (c : Char) (hc : c ≠ '/') :
      topic.toList.contains c = false ↔ ∀ level ∈ levels topic, c ∉ level := by
    rw [← join_levels topic, Bool.eq_false_iff, ne_eq, List.contains_iff_mem, mem_join hc]
    simp
  rw [isPublishable, Bool.and_eq_true, Bool.and_eq_true, Bool.not_eq_true', Bool.not_eq_true',
    hmem '+' (by decide), hmem '#' (by decide), decide_eq_true_eq, and_assoc]
  simp only [← forall_and]

theorem wellFormed_iff_of_literal {ls : List Level} (h : ∀ level ∈ ls, '+' ∉ level ∧ '#' ∉ level) :
    wellFormed ls = true ↔ [] ∉ ls := by
  induction ls with
  | nil => simp [wellFormed]
  | cons level ls ih =>
    obtain ⟨⟨hplus, hhash⟩, hrest⟩ := List.forall_mem_cons.mp h
    simp [wellFormed, hplus, hhash, ih hrest, @eq_comm _ []]

theorem isFilter_iff_of_publishable {topic : String} (h : isPublishable topic = true) :
    isFilter topic = true ↔ [] ∉ levels topic :=
  wellFormed_iff_of_literal (isPublishable_iff.mp h).2

theorem eq_of_covers_plain {filter names : List Level}
    (hplain : ∀ level ∈ filter, isPlain level = true) (h : covers filter names = true) :
    names = filter := by
  induction filter generalizing names with
  | nil => exact List.isEmpty_iff.mp h
  | cons level filter ih =>
    obtain ⟨hlevel, hrest⟩ := List.forall_mem_cons.mp hplain
    have hhash : level ≠ ['#'] := by
      rintro rfl
      cases hlevel
    have hplus : level ≠ ['+'] := by
      rintro rfl
      cases hlevel
    cases names with
    | nil =>
      rw [covers_cons_nil hhash] at h
      cases h
    | cons name names =>
      rw [covers_cons_cons hhash, beq_false_of_ne hplus, Bool.false_or, Bool.and_eq_true,
        beq_iff_eq] at h
      rw [h.1, ih hrest h.2]

/-- With an empty level for each `+` a filter of several levels becomes a topic. -/
theorem exists_topic_with_empty_level {narrowed : List Level}
    (hsingle : ∀ level ∈ narrowed, isSingle level = true) (hslash : ∀ level ∈ narrowed, '/' ∉ level)
    (hplus : ['+'] ∈ narrowed) (hlength : 2 ≤ narrowed.length) :
    ∃ topic, isPublishable topic = true ∧ covers narrowed (levels topic) = true ∧
      [] ∈ levels topic := by
  obtain ⟨topic, hlevels⟩ :=
    exists_levels_fill (List.ne_nil_of_mem hplus) hslash (x := []) List.not_mem_nil
  refine ⟨topic, isPublishable_iff.mpr ⟨?_, fun level hlevel => ?_⟩, ?_, ?_⟩
  · rintro rfl
    have hone := congrArg List.length hlevels
    rw [List.length_map, show (levels "").length = 1 from by decide +kernel] at hone
    omega
  · rw [hlevels] at hlevel
    obtain ⟨own, hown, rfl⟩ := List.mem_map.mp hlevel
    unfold fill
    split
    case isTrue => exact ⟨List.not_mem_nil, List.not_mem_nil⟩
    case isFalse hother =>
      have hplain : isPlain own = true := by simpa [isSingle, hother] using hsingle own hown
      simp only [isPlain, Bool.and_eq_true, Bool.not_eq_true', List.contains_eq_mem,
        decide_eq_false_iff_not] at hplain
      exact ⟨hplain.1.2, hplain.2⟩
  · rw [hlevels]
    exact covers_fill [] (hash_notMem hsingle)
  · rw [hlevels]
    exact List.mem_map.mpr ⟨['+'], hplus, rfl⟩

theorem levels_injective {a b : String} (h : levels a = levels b) : a = b :=
  String.toList_injective (by rw [← join_levels a, ← join_levels b, h])

/-- A filter covers topics with empty levels unless it is `+` or has no wildcard. -/
theorem covers_no_empty_level_iff {filter : String} (hfilter : isFilter filter = true) :
    (∀ topic, isPublishable topic = true → isCovered topic filter = true → [] ∉ levels topic) ↔
      filter = "+" ∨ ∀ level ∈ levels filter, isPlain level = true := by
  constructor
  · intro h
    have hslash : ∀ level ∈ levels filter, '/' ∉ level := fun _ => slash_notMem_of_mem_levels
    rcases wellFormed_cases hfilter with hall | ⟨first, hlevels, hfirst⟩
    · by_cases hplus : ['+'] ∈ levels filter
      · left
        by_contra hother
        have hlength : 2 ≤ (levels filter).length := by
          match hls : levels filter with
          | [] => exact absurd hls (levels_ne_nil filter)
          | [level] =>
            rw [hls, List.mem_singleton] at hplus
            exact absurd (levels_injective (b := "+") (by rw [hls, ← hplus]; decide +kernel)) hother
          | _ :: _ :: _ => simp
        obtain ⟨topic, htopic, hcovers, hempty⟩ :=
          exists_topic_with_empty_level hall hslash hplus hlength
        exact h topic htopic hcovers hempty
      · refine .inr fun level hlevel => ?_
        have hother : level ≠ ['+'] := fun heq => hplus (heq ▸ hlevel)
        simpa [isSingle, hother] using hall level hlevel
    · -- two empty levels for the `#` are a topic even if nothing stands in front
      have hsingle := forall_mem_append_plus hfirst isSingle_plus 2
      have hnarrow := forall_mem_append_plus
        (fun level hlevel => hslash level (hlevels ▸ List.mem_append_left _ hlevel)) (by decide) 2
      obtain ⟨topic, htopic, hcovers, hempty⟩ := exists_topic_with_empty_level hsingle hnarrow
        (List.mem_append_right _ List.mem_cons_self) (by simp)
      refine absurd hempty (h topic htopic ?_)
      rw [isCovered, hlevels]
      exact (covers_append_hash (hash_notMem hfirst)).mpr ⟨2, hcovers⟩
  · rintro (rfl | hplain) topic htopic hcovered hempty
    · rw [isCovered, show levels "+" = [['+']] from by decide +kernel] at hcovered
      cases hls : levels topic with
      | nil => exact levels_ne_nil topic hls
      | cons level rest =>
        rw [hls, covers_cons_cons (by decide), Bool.and_eq_true, covers, List.isEmpty_iff]
          at hcovered
        rw [hls, hcovered.2, List.mem_singleton] at hempty
        refine (isPublishable_iff.mp htopic).1 (levels_injective ?_)
        rw [hls, hcovered.2, ← hempty]
        decide +kernel
    · rw [eq_of_covers_plain hplain hcovered] at hempty
      exact absurd (hplain [] hempty) (by decide)

end Topic

namespace Policy

variable {p : Policy} {s : Session}

theorem granted_eq_ok_iff {α : Type} {decision : Access.Decision} {a b : α} :
    granted decision a = .ok b ↔ decision.isAllowed = true ∧ a = b := by
  unfold granted
  split
  case isTrue h => simp [h]
  case isFalse h => simp [h]

theorem authorizePublish_eq_ok_iff {content sent : Publication} :
    p.authorizePublish s content = .ok sent ↔ Topic.isName content.topic = true ∧
      (p.access.decidePublish s (p.localize s content.topic).inner).isAllowed = true ∧
      { content with topic := (p.localize s content.topic).forwarded } = sent := by
  unfold authorizePublish
  split
  case isTrue h => simp [granted_eq_ok_iff, h]
  case isFalse h => simp [h]

theorem authorizeFilter_eq_ok_iff {filter forwarded : String} :
    p.authorizeFilter s filter = .ok forwarded ↔ Topic.isFilter filter = true ∧
      (p.access.decideSubscribe s (p.localize s filter).inner).isAllowed = true ∧
      (p.localize s filter).forwarded = forwarded := by
  unfold authorizeFilter
  split
  case isTrue h => simp [granted_eq_ok_iff, h]
  case isFalse h => simp [h]

theorem authorizeFilter_eq_badFilter {filter : String} (h : Topic.isFilter filter = false) :
    p.authorizeFilter s filter = .error (.badFilter filter) := by
  rw [authorizeFilter, h]
  rfl

/-! ## Deliveries -/

def Delivers (p : Policy) (s : Session) (topic : String) : Prop :=
  ∃ filters, p.authorizeSubscribe s [topic] = .ok filters

theorem authorizeSubscribe_singleton_iff {topic : String} {filters : List String} :
    p.authorizeSubscribe s [topic] = .ok filters ↔
      ∃ forwarded, p.authorizeFilter s topic = .ok forwarded ∧ filters = [forwarded] := by
  rw [authorizeSubscribe, mapM_eq_ok_iff]
  constructor
  · intro h
    cases h with
    | cons hfirst hrest =>
      cases hrest
      exact ⟨_, hfirst, rfl⟩
  · rintro ⟨forwarded, h, rfl⟩
    exact .cons h .nil

theorem delivers_iff {topic : String} : p.Delivers s topic ↔ Topic.isFilter topic = true ∧
    (p.access.decideSubscribe s (p.localize s topic).inner).isAllowed = true := by
  simp only [Delivers, authorizeSubscribe_singleton_iff, authorizeFilter_eq_ok_iff]
  constructor
  · rintro ⟨_, _, ⟨hfilter, hallowed, -⟩, -⟩
    exact ⟨hfilter, hallowed⟩
  · rintro ⟨hfilter, hallowed⟩
    exact ⟨_, _, ⟨hfilter, hallowed, rfl⟩, rfl⟩

def DeliversInside (p : Policy) (scope : Scope) (s : Session) (topic : String) : Prop :=
  ∃ inner, topic = scope.apply inner s.username s.id ∧
    (p.access.decideSubscribe s inner).isAllowed = true

def DeliversOutside (p : Policy) (scope : Scope) (s : Session) (topic : String) : Prop :=
  (∀ inner, topic ≠ scope.apply inner s.username s.id) ∧
    (p.access.decideSubscribe s topic).isAllowed = true

/-- A topic outside of the scope is taken for one that has yet to be moved there. -/
theorem delivers_scoped_iff {scope : Scope} (hscope : p.scope = some scope) {topic : String} :
    p.Delivers s topic ↔ Topic.isFilter topic = true ∧
      (p.DeliversInside scope s topic ∨ p.DeliversOutside scope s topic) := by
  refine delivers_iff.trans (and_congr_right fun _ => ?_)
  cases hstrip : scope.strip? topic s.username s.id with
  | none =>
    have hout := (scope.strip?_eq_none_iff _ _).mp hstrip
    simp only [localize, hscope, hstrip]
    exact ⟨fun h => .inr ⟨hout, h⟩, fun h =>
      h.elim (fun ⟨inner, hinner, _⟩ => absurd hinner (hout inner)) And.right⟩
  | some inner =>
    have hin := (scope.strip?_eq_some_iff _ _).mp hstrip
    simp only [localize, hscope, hstrip]
    refine ⟨fun h => .inl ⟨inner, hin, h⟩, fun h => ?_⟩
    rcases h with ⟨other, hother, hallowed⟩ | ⟨hout, -⟩
    · rw [(scope.strip?_eq_some_iff _ _).mpr hother] at hstrip
      cases hstrip
      exact hallowed
    · exact absurd hin (hout inner)

/-! ## Without rules and scope -/

section Open

variable (haccess : p.access.enabled = false) (hscope : p.scope = none)
include haccess hscope

theorem authorizeFilter_eq_ok_iff_of_open {filter forwarded : String} :
    p.authorizeFilter s filter = .ok forwarded ↔
      Topic.isFilter filter = true ∧ forwarded = filter := by
  have hallowed (topic : String) : (p.access.decideSubscribe s topic).isAllowed = true := by
    rw [Access.AccessList.decideSubscribe, Access.AccessList.decide, haccess]
    rfl
  simp only [authorizeFilter_eq_ok_iff, localize, hscope, hallowed, true_and]
  exact and_congr_right fun _ => eq_comm

/-- Filters are accepted as they are. -/
theorem authorizeSubscribe_eq_ok_iff_of_open {filters accepted : List String} :
    p.authorizeSubscribe s filters = .ok accepted ↔
      accepted = filters ∧ ∀ filter ∈ filters, Topic.isFilter filter = true := by
  rw [authorizeSubscribe, mapM_eq_ok_iff]
  simp only [authorizeFilter_eq_ok_iff_of_open haccess hscope]
  constructor
  · intro h
    induction h with
    | nil => exact ⟨rfl, fun _ hmem => absurd hmem List.not_mem_nil⟩
    | cons hfirst _ ih =>
      obtain ⟨hfilter, rfl⟩ := hfirst
      obtain ⟨rfl, hrest⟩ := ih
      exact ⟨rfl, List.forall_mem_cons.mpr ⟨hfilter, hrest⟩⟩
  · rintro ⟨rfl, h⟩
    exact List.forall₂_same.mpr fun filter hmem => ⟨h filter hmem, rfl⟩

theorem delivers_iff_of_open {topic : String} :
    p.Delivers s topic ↔ Topic.isFilter topic = true := by
  simp only [Delivers, authorizeSubscribe_singleton_iff,
    authorizeFilter_eq_ok_iff_of_open haccess hscope]
  constructor
  · rintro ⟨_, _, ⟨hfilter, -⟩, -⟩
    exact hfilter
  · intro hfilter
    exact ⟨_, _, ⟨hfilter, rfl⟩, rfl⟩

/-- All that a delivery is turned away for is that its topic could not be a filter. -/
theorem authorizeSubscribe_eq_error_of_open {topic : String} {denial : Denial}
    (h : p.authorizeSubscribe s [topic] = .error denial) :
    Topic.isFilter topic = false ∧ denial = .badFilter topic := by
  cases hfilter : Topic.isFilter topic with
  | true =>
    obtain ⟨filters, hok⟩ := (delivers_iff_of_open haccess hscope).mpr hfilter
    rw [hok] at h
    cases h
  | false =>
    rw [authorizeSubscribe, List.mapM_cons, authorizeFilter_eq_badFilter hfilter] at h
    cases h
    exact ⟨rfl, rfl⟩

end Open
end Policy
end MqttGateway
