import MqttGateway.Proofs.Topic.Subscribing
/-!
# Local names

Behind the root of a session a topic has a local name. The rules are asked about the local name, and
what is forwarded is the root with the local name behind it. Main statement: this is so for all that
is published and subscribed to under a policy, whatever the template and whoever the client is, and
a name that was forwarded has the local name that it was made of.
-/
namespace MqttGateway

namespace Scope

def closed (text : String) : String :=
  if text = "" ∨ text.toList.getLast? = some '/' then text else text ++ "/"

theorem toList_closed_render (scope : Scope) (username clientId : String) :
    (closed (scope.render username clientId)).toList = scope.root username clientId := by
  have htext : (scope.render username clientId).toList = scope.fill username clientId :=
    String.toList_ofList ..
  unfold closed root
  simp only [← htext, Bool.or_eq_true, List.isEmpty_iff, beq_iff_eq, String.toList_eq_nil_iff]
  split
  · rfl
  · exact String.toList_append ..

theorem apply_eq (scope : Scope) (topic username clientId : String) :
    scope.apply topic username clientId = closed (scope.render username clientId) ++ topic := by
  rw [apply, ← toList_closed_render, String.ofList_append, String.ofList_toList,
    String.ofList_toList]

end Scope

/-- The local name of a topic behind a root: what follows the root in a topic that carries it, any
other topic as a whole. -/
inductive LocalName (root : String) : (topic inner : String) → Prop
  | inside (inner : String) : LocalName root (root ++ inner) inner
  | outside (topic : String) (h : ∀ inner, topic ≠ root ++ inner) : LocalName root topic topic

theorem LocalName.unique {root topic a b : String} (ha : LocalName root topic a)
    (hb : LocalName root topic b) : a = b := by
  cases ha with
  | inside =>
    generalize htopic : root ++ a = topic at hb
    cases hb with
    | inside => exact (String.append_right_inj _).mp htopic
    | outside _ h => exact absurd htopic.symm (h a)
  | outside _ h =>
    cases hb with
    | inside => exact absurd rfl (h b)
    | outside => rfl

namespace Policy

variable {p : Policy} {s : Session}

def root (p : Policy) (s : Session) : String :=
  p.scope.elim "" fun scope => Scope.closed (scope.render s.username s.id)

def rootLevels (p : Policy) (s : Session) : List Topic.Level :=
  p.scope.elim [] fun scope => scope.rootLevels s.username s.id

theorem levels_root_append (p : Policy) (s : Session) (inner : String) :
    Topic.levels (p.root s ++ inner) = p.rootLevels s ++ Topic.levels inner := by
  rw [Topic.levels, String.toList_append, root, rootLevels]
  cases p.scope with
  | none => rfl
  | some scope =>
    rw [Option.elim_some, Option.elim_some, Scope.toList_closed_render, scope.splitOn_root_append]
    rfl

theorem localize_localName (p : Policy) (s : Session) (topic : String) :
    LocalName (p.root s) topic (p.localize s topic).inner ∧
      (p.localize s topic).forwarded = p.root s ++ (p.localize s topic).inner := by
  unfold localize root
  cases p.scope with
  | none =>
    have hempty : "" ++ topic = topic := String.empty_append
    exact ⟨hempty ▸ .inside topic, hempty.symm⟩
  | some scope =>
    simp only [Option.elim_some]
    cases hstrip : scope.strip? topic s.username s.id with
    | none =>
      have hout := (scope.strip?_eq_none_iff _ _).mp hstrip
      simp only [Scope.apply_eq] at hout
      exact ⟨.outside topic hout, scope.apply_eq ..⟩
    | some inner =>
      have hin := (scope.strip?_eq_some_iff _ _).mp hstrip
      rw [Scope.apply_eq] at hin
      exact ⟨hin ▸ .inside inner, hin⟩

theorem localize_eq_of_localName {topic inner : String} (h : LocalName (p.root s) topic inner) :
    p.localize s topic = ⟨inner, p.root s ++ inner⟩ := by
  obtain ⟨hname, hforwarded⟩ := p.localize_localName s topic
  cases hl : p.localize s topic with
  | mk own forwarded =>
    rw [hl] at hname hforwarded
    dsimp only at hname hforwarded
    rw [h.unique hname, hforwarded]

/-- A name that was forwarded has the local name that it was made of. -/
theorem localize_forwarded (p : Policy) (s : Session) (topic : String) :
    p.localize s (p.localize s topic).forwarded = p.localize s topic := by
  obtain ⟨hname, hforwarded⟩ := p.localize_localName s topic
  rw [hforwarded, localize_eq_of_localName (.inside _), localize_eq_of_localName hname]

/-! ## Publishing -/

theorem authorizePublish_eq_ok_iff_localName {content sent : Publication} :
    p.authorizePublish s content = .ok sent ↔ Topic.isName content.topic = true ∧
      ∃ inner, LocalName (p.root s) content.topic inner ∧
        (p.access.decidePublish s inner).isAllowed = true ∧
        sent = ⟨p.root s ++ inner, content.payload⟩ := by
  rw [authorizePublish_eq_ok_iff]
  refine and_congr_right fun _ => ?_
  constructor
  · rintro ⟨hallowed, rfl⟩
    obtain ⟨hname, hforwarded⟩ := p.localize_localName s content.topic
    exact ⟨_, hname, hallowed, by rw [hforwarded]⟩
  · rintro ⟨inner, hname, hallowed, rfl⟩
    rw [localize_eq_of_localName hname]
    exact ⟨hallowed, rfl⟩

/-! ## Subscribing -/

def Accepts (p : Policy) (s : Session) (filter : String) : Prop :=
  Topic.isFilter filter = true ∧ ∃ inner, LocalName (p.root s) filter inner ∧
    (p.access.decideSubscribe s inner).isAllowed = true

inductive Refuses (p : Policy) (s : Session) (filter : String) : Denial → Prop
  | malformed (h : Topic.isFilter filter = false) : Refuses p s filter (.badFilter filter)
  | denied {inner : String} (hfilter : Topic.isFilter filter = true)
      (hname : LocalName (p.root s) filter inner)
      (hdenied : (p.access.decideSubscribe s inner).isAllowed = false) :
      Refuses p s filter (.decided (p.access.decideSubscribe s inner))

theorem authorizeFilter_eq_ok_iff_accepts {filter forwarded : String} :
    p.authorizeFilter s filter = .ok forwarded ↔ p.Accepts s filter ∧
      ∃ inner, LocalName (p.root s) filter inner ∧ forwarded = p.root s ++ inner := by
  obtain ⟨hname, hforwarded⟩ := p.localize_localName s filter
  rw [authorizeFilter_eq_ok_iff, hforwarded]
  constructor
  · rintro ⟨hfilter, hallowed, rfl⟩
    exact ⟨⟨hfilter, _, hname, hallowed⟩, _, hname, rfl⟩
  · rintro ⟨⟨hfilter, inner, hinner, hallowed⟩, other, hother, rfl⟩
    rw [← hinner.unique hname, ← hinner.unique hother]
    exact ⟨hfilter, hallowed, rfl⟩

theorem exists_authorizeFilter_iff {filter : String} :
    (∃ forwarded, p.authorizeFilter s filter = .ok forwarded) ↔ p.Accepts s filter := by
  simp only [authorizeFilter_eq_ok_iff_accepts]
  exact ⟨fun ⟨_, h, _⟩ => h, fun h => ⟨_, h, _, (p.localize_localName s filter).1, rfl⟩⟩

theorem granted_eq_error_iff {α : Type} {decision : Access.Decision} {a : α} {denial : Denial} :
    granted decision a = .error denial ↔
      decision.isAllowed = false ∧ .decided decision = denial := by
  unfold granted
  split
  case isTrue h => simp [h]
  case isFalse h => simp [h]

theorem authorizeFilter_eq_error_iff {filter : String} {denial : Denial} :
    p.authorizeFilter s filter = .error denial ↔ p.Refuses s filter denial := by
  obtain ⟨hname, -⟩ := p.localize_localName s filter
  cases hfilter : Topic.isFilter filter with
  | false =>
    rw [authorizeFilter_eq_badFilter hfilter]
    constructor
    · rintro ⟨⟩
      exact .malformed hfilter
    · rintro (- | ⟨hwell, -, -⟩)
      · rfl
      · rw [hfilter] at hwell
        cases hwell
  | true =>
    rw [authorizeFilter, if_pos hfilter, granted_eq_error_iff]
    constructor
    · rintro ⟨hdenied, rfl⟩
      exact .denied hfilter hname hdenied
    · rintro (hbad | ⟨-, hinner, hdenied⟩)
      · rw [hfilter] at hbad
        cases hbad
      · rw [← hinner.unique hname]
        exact ⟨hdenied, rfl⟩

theorem exists_authorizeSubscribe_iff {filters : List String} :
    (∃ sent, p.authorizeSubscribe s filters = .ok sent) ↔
      ∀ filter ∈ filters, p.Accepts s filter := by
  simp only [← exists_authorizeFilter_iff]
  exact ⟨fun ⟨_, h⟩ => forall_of_mapM_eq_ok h, exists_mapM_eq_ok⟩

/-! ## Under settings -/

theorem ofSettings_eq_ok_iff {settings : Settings} : Policy.ofSettings settings = .ok p ↔
    Access.AccessList.ofSettings settings.acl = .ok p.access ∧
      p.scope = (settings.policy.topicPrefix.filter (· ≠ "")).map Scope.mk := by
  rw [ofSettings, bind_eq_ok_iff]
  constructor
  · rintro ⟨access, haccess, ⟨⟩⟩
    exact ⟨haccess, rfl⟩
  · rintro ⟨haccess, hscope⟩
    exact ⟨p.access, haccess, by rw [← hscope]; rfl⟩

/-- An empty template puts nothing in front, no more than none does. -/
theorem root_of_settings {settings : Settings} (h : Policy.ofSettings settings = .ok p)
    (s : Session) : p.root s = settings.policy.topicPrefix.elim "" fun template =>
      Scope.closed ((Scope.mk template).render s.username s.id) := by
  rw [root, (ofSettings_eq_ok_iff.mp h).2]
  cases settings.policy.topicPrefix with
  | none => rfl
  | some template =>
    by_cases hempty : template = ""
    · have hnone : (some template).filter (· ≠ "") = none := by simp [hempty]
      have hrender : (Scope.mk "").render s.username s.id = "" := by
        simp [Scope.render, Scope.fill, substitute]
      rw [hnone, hempty, Option.elim_some, hrender]
      rfl
    · have hsome : (some template).filter (· ≠ "") = some template := by simp [hempty]
      rw [hsome]
      rfl

/-- What is published and subscribed to goes out as the root of the session with a local name behind
it that the rules allow, for as many filters as there are and in their order, and the denial is that
of the first filter which is not accepted. -/
theorem forwards_local_names (p : Policy) (s : Session) :
    (∀ settings, Policy.ofSettings settings = .ok p →
      Access.AccessList.ofSettings settings.acl = .ok p.access ∧
      p.root s = settings.policy.topicPrefix.elim "" fun template =>
        Scope.closed ((Scope.mk template).render s.username s.id)) ∧
    (∀ content sent, p.authorizePublish s content = .ok sent ↔
      Topic.isName content.topic = true ∧ ∃ inner, LocalName (p.root s) content.topic inner ∧
        (p.access.decidePublish s inner).isAllowed = true ∧
        sent = ⟨p.root s ++ inner, content.payload⟩) ∧
    (∀ filters, (∃ sent, p.authorizeSubscribe s filters = .ok sent) ↔
      ∀ filter ∈ filters, p.Accepts s filter) ∧
    (∀ filters sent, p.authorizeSubscribe s filters = .ok sent →
      List.Forall₂ (fun filter forwarded => ∃ inner, LocalName (p.root s) filter inner ∧
        forwarded = p.root s ++ inner) filters sent) ∧
    (∀ filters denial, p.authorizeSubscribe s filters = .error denial ↔
      ∃ before filter after, filters = before ++ filter :: after ∧
        (∀ f ∈ before, p.Accepts s f) ∧ p.Refuses s filter denial) ∧
    ∀ topic, (p.localize s topic).forwarded = p.root s ++ (p.localize s topic).inner ∧
      LocalName (p.root s) topic (p.localize s topic).inner ∧
      p.localize s (p.localize s topic).forwarded = p.localize s topic := by
  refine ⟨fun settings h => ⟨(ofSettings_eq_ok_iff.mp h).1, root_of_settings h s⟩,
    fun _ _ => authorizePublish_eq_ok_iff_localName, fun _ => exists_authorizeSubscribe_iff,
    fun filters sent h => ?_, fun filters denial => ?_, fun topic => ?_⟩
  · refine (mapM_eq_ok_iff.mp h).imp fun filter forwarded hforwarded => ?_
    exact (authorizeFilter_eq_ok_iff_accepts.mp hforwarded).2
  · simp only [authorizeSubscribe, mapM_eq_error_iff, exists_authorizeFilter_iff,
      authorizeFilter_eq_error_iff]
  · obtain ⟨hname, hforwarded⟩ := p.localize_localName s topic
    exact ⟨hforwarded, hname, p.localize_forwarded s topic⟩

end Policy
end MqttGateway
