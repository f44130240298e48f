import MqttGateway.Proofs.Topic.Localizing
/-!
# Sessions that cannot reach each other

Main statement: whatever the access list, nothing that one session may publish in its scope is
covered by what another may subscribe to in its own, exactly if the roots of the two scopes do not
meet. The roots of sessions with different usernames do not meet as long as each username fills its
level of the template as it is and the subscriber's is no wildcard.
-/
namespace MqttGateway

namespace Policy

def Reaches (p : Policy) (s t : Session) : Prop :=
  ∃ content sent filters forwarded, p.authorizePublish s content = .ok sent ∧
    p.authorizeSubscribe t filters = .ok forwarded ∧
    ∃ filter ∈ forwarded, Topic.isCovered sent.topic filter = true

variable {p : Policy} {s t : Session}

/-! ## What is forwarded -/

/-- Whatever is forwarded has the levels of the session's root and then the last of its own. -/
theorem levels_forwarded (scope : Scope) (access : Access.AccessList) (s : Session)
    (topic : String) : ∃ own, own ≠ [] ∧ own <:+ Topic.levels topic ∧
      Topic.levels ((Policy.mk access (some scope)).localize s topic).forwarded =
        scope.rootLevels s.username s.id ++ own := by
  obtain ⟨hname, hforwarded⟩ := (Policy.mk access (some scope)).localize_localName s topic
  generalize ((Policy.mk access (some scope)).localize s topic).inner = inner at hname hforwarded
  refine ⟨Topic.levels inner, Topic.levels_ne_nil inner, ?_, ?_⟩
  · cases hname with
    | inside =>
      rw [levels_root_append]
      exact List.suffix_append ..
    | outside => exact List.suffix_rfl
  · rw [hforwarded, levels_root_append]
    rfl

theorem meets_of_reaches {scope : Scope} {access : Access.AccessList}
    (h : Reaches ⟨access, some scope⟩ s t) :
    Topic.meets (scope.rootLevels s.username s.id) (scope.rootLevels t.username t.id) = true := by
  obtain ⟨content, sent, filters, forwarded, hpublish, hsubscribe, filter, hfilter, hcovered⟩ := h
  obtain ⟨hname, -, rfl⟩ := authorizePublish_eq_ok_iff.mp hpublish
  obtain ⟨asked, -, hasked⟩ := exists_of_mem_mapM hsubscribe filter hfilter
  obtain ⟨-, -, rfl⟩ := authorizeFilter_eq_ok_iff.mp hasked
  obtain ⟨own, -, hown, hlevels⟩ := levels_forwarded scope access s content.topic
  obtain ⟨rest, hrest, -, hlevels'⟩ := levels_forwarded scope access t asked
  rw [Topic.isCovered, hlevels, hlevels'] at hcovered
  exact Topic.meets_of_covers
    (fun level hlevel => Topic.isName_iff.mp hname level (hown.subset hlevel)) hrest hcovered

/-! ## What can be forwarded -/

theorem authorizePublish_open (scope : Option Scope) {content : Publication}
    (h : Topic.isName content.topic = true) : (Policy.mk {} scope).authorizePublish s content =
      .ok { content with topic := ((Policy.mk {} scope).localize s content.topic).forwarded } := by
  rw [authorizePublish, if_pos h]
  rfl

theorem authorizeFilter_open (scope : Option Scope) {filter : String}
    (h : Topic.isFilter filter = true) : (Policy.mk {} scope).authorizeFilter t filter =
      .ok ((Policy.mk {} scope).localize t filter).forwarded := by
  rw [authorizeFilter, if_pos h]
  rfl

/-- Every name can be had behind the root of a session. -/
theorem exists_name (scope : Scope) (access : Access.AccessList) (s : Session)
    {more : List Topic.Level} (hne : more ≠ [])
    (hmore : ∀ level ∈ more, Topic.isPlain level = true ∧ '/' ∉ level) :
    ∃ topic, Topic.isName topic = true ∧
      Topic.levels ((Policy.mk access (some scope)).localize s topic).forwarded =
        scope.rootLevels s.username s.id ++ more := by
  have hlevels := Topic.levels_join hne fun level hlevel => (hmore level hlevel).2
  generalize String.ofList (Topic.join more) = name at hlevels
  let p : Policy := ⟨access, some scope⟩
  have hbehind : Topic.levels (p.root s ++ name) = scope.rootLevels s.username s.id ++ more := by
    rw [levels_root_append, hlevels]
    rfl
  have hplain : ∀ level ∈ Topic.levels name, Topic.isPlain level = true := by
    rw [hlevels]
    exact fun level hlevel => (hmore level hlevel).1
  by_cases hin : ∃ inner, name = p.root s ++ inner
  · -- the name carries the root, so behind the root it is a name as well and is not moved
    obtain ⟨inner, hinner⟩ := hin
    refine ⟨p.root s ++ name, Topic.isName_iff.mpr ?_, ?_⟩
    · rw [hinner, levels_root_append, List.forall_mem_append] at hplain
      rw [levels_root_append, hinner, levels_root_append, List.forall_mem_append,
        List.forall_mem_append]
      exact ⟨hplain.1, hplain⟩
    · rw [localize_eq_of_localName (.inside name)]
      exact hbehind
  · refine ⟨name, Topic.isName_iff.mpr hplain, ?_⟩
    rw [localize_eq_of_localName (.outside name (not_exists.mp hin))]
    exact hbehind

theorem levels_forwarded_hash (scope : Scope) (access : Access.AccessList) (t : Session) :
    Topic.levels ((Policy.mk access (some scope)).localize t "#").forwarded =
      scope.rootLevels t.username t.id ++ [['#']] := by
  obtain ⟨own, hne, hown, hlevels⟩ := levels_forwarded scope access t "#"
  rw [show Topic.levels "#" = [['#']] from by decide +kernel, List.suffix_cons_iff,
    List.suffix_nil] at hown
  rw [hlevels, hown.resolve_right hne]

theorem reaches_of_meets {scope : Scope}
    (h : Topic.meets (scope.rootLevels s.username s.id) (scope.rootLevels t.username t.id) = true) :
    Reaches ⟨{}, some scope⟩ s t := by
  obtain ⟨more, hne, hmore, hcovers⟩ := Topic.exists_covered_of_meets
    (fun level hlevel => scope.slash_notMem_of_mem_rootLevels _ _ hlevel) h
  obtain ⟨topic, hname, hlevels⟩ := exists_name scope {} s hne hmore
  have hsubscribe : (Policy.mk {} (some scope)).authorizeSubscribe t ["#"] =
      .ok [((Policy.mk {} (some scope)).localize t "#").forwarded] := by
    rw [authorizeSubscribe, List.mapM_cons, authorizeFilter_open _ (by decide +kernel)]
    rfl
  refine ⟨⟨topic, []⟩, _, ["#"], _, authorizePublish_open _ hname, hsubscribe, _,
    List.mem_singleton_self _, ?_⟩
  rw [Topic.isCovered, levels_forwarded_hash, hlevels]
  exact hcovers

end Policy

/-! ## Usernames -/

structure Scope.Fits (scope : Scope) (s : Session) : Prop where
  named : s.username ≠ ""
  literal : ¬ clientPlaceholder <:+: s.username.toList
  oneEach : ∀ level ∈ Topic.levels scope.template, '/' ∉ fillText s.username s.id level

theorem Scope.Fits.getElem? {scope : Scope} {s : Session} (h : scope.Fits s) {k : Nat}
    (hk : (Topic.levels scope.template)[k]? = some userPlaceholder) :
    (scope.rootLevels s.username s.id)[k]? = some s.username.toList := by
  have hfill : fillText s.username s.id userPlaceholder = s.username.toList := by
    rw [fillText, substitute_self userPlaceholder_ne_nil, substitute_of_not_infix h.literal]
  have hne : fillText s.username s.id userPlaceholder ≠ [] := by
    rw [hfill]
    exact fun hnil => h.named (String.toList_eq_nil_iff.mp hnil)
  rw [scope.getElem?_rootLevels _ _ h.oneEach hk hne, hfill]

namespace Policy

variable {s t : Session}

/-- Of what one session publishes another can subscribe to something exactly if the roots of their
scopes meet, and they do not if their usernames differ and fill the levels of the template. -/
theorem isolated_iff_roots_apart (scope : Scope) (s t : Session) :
    ((∀ access, ¬ Reaches ⟨access, some scope⟩ s t) ↔
      Topic.meets (scope.rootLevels s.username s.id) (scope.rootLevels t.username t.id) = false) ∧
    (Scope.userPlaceholder ∈ Topic.levels scope.template → scope.Fits s → scope.Fits t →
      s.username ≠ t.username → t.username ≠ "+" →
      ∀ access, ¬ Reaches ⟨access, some scope⟩ s t) := by
  refine ⟨⟨fun h => ?_, fun h access hreaches => ?_⟩, ?_⟩
  · exact Bool.eq_false_iff.mpr fun hmeets => h {} (reaches_of_meets hmeets)
  · rw [meets_of_reaches hreaches] at h
    cases h
  · intro huser hs ht hne hplus access hreaches
    obtain ⟨k, hk⟩ := List.getElem?_of_mem huser
    have hlevels : t.username.toList ≠ s.username.toList := fun h =>
      hne (String.toList_injective h).symm
    have hwild : t.username.toList ≠ ['+'] := fun h =>
      hplus (String.toList_injective h)
    have hmeets := meets_of_reaches hreaches
    rw [Topic.meets_eq_false (hs.getElem? hk) (ht.getElem? hk) hwild hlevels] at hmeets
    cases hmeets

def branches : Scope :=
  ⟨"tenants/\x7busername\x7d"⟩

theorem levels_branches :
    Topic.levels branches.template = ["tenants".toList, Scope.userPlaceholder] := by
  decide +kernel

theorem acme_globex_isolated :
    Scope.userPlaceholder ∈ Topic.levels branches.template ∧
    branches.Fits { username := "acme" } ∧ branches.Fits { username := "globex" } ∧
    ∀ access,
      ¬ Reaches ⟨access, some branches⟩ { username := "acme" } { username := "globex" } := by
  have huser : Scope.userPlaceholder ∈ Topic.levels branches.template := by
    rw [levels_branches]
    decide +kernel
  have hacme : branches.Fits { username := "acme" } :=
    ⟨by decide +kernel, by decide +kernel, by decide +kernel⟩
  have hglobex : branches.Fits { username := "globex" } :=
    ⟨by decide +kernel, by decide +kernel, by decide +kernel⟩
  exact ⟨huser, hacme, hglobex, (isolated_iff_roots_apart branches _ _).2 huser hacme hglobex
    (by decide +kernel) (by decide +kernel)⟩

/-- A username that is a wildcard takes its session into every branch. So does an empty one, and one
that holds a slash or spells the other placeholder leads into another's branch. -/
theorem branches_meet :
    Topic.levels branches.template = ["tenants".toList, Scope.userPlaceholder] ∧
    (let p : Policy := ⟨{}, some branches⟩
     (p.authorizePublish { username := "acme" } ⟨"x", []⟩).toOption =
        some ⟨"tenants/acme/x", []⟩ ∧
      (p.authorizeSubscribe { username := "+" } ["x"]).toOption = some ["tenants/+/x"] ∧
      Topic.isCovered "tenants/acme/x" "tenants/+/x" = true) ∧
    Reaches ⟨{}, some branches⟩ { username := "acme" } { username := "" } ∧
    Reaches ⟨{}, some branches⟩ { username := "acme/plant" } { username := "acme" } ∧
    Reaches ⟨{}, some branches⟩ { username := "acme" }
      { username := "\x7bclient_id\x7d", id := "acme" } :=
  ⟨levels_branches, by decide +kernel, reaches_of_meets (by decide +kernel),
    reaches_of_meets (by decide +kernel), reaches_of_meets (by decide +kernel)⟩

end Policy
end MqttGateway
