import MqttGateway.Proofs.Topic.Isolation
import MqttGateway.Proofs.Topic.Localizing
/-!
# Asking again about what was forwarded

What is forwarded to the broker comes back as a delivery, and the policy is asked about it once
more. It keeps its local name, so that the rules decide as before. But what was checked to be a name
or a filter is what the client wrote: the identity is put in front of it afterwards. Main statement:
what was forwarded is accepted again, and unchanged, exactly if the levels of the root can stand in
a name or, for filters, in a filter. They can if the template is a name and so is each value that is
put into it.
-/
namespace MqttGateway

namespace Topic

theorem wellFormed_cons_iff {level : Level} {rest : List Level} (hrest : rest ≠ []) :
    wellFormed (level :: rest) = true ↔ isSingle level = true ∧ wellFormed rest = true := by
  rw [wellFormed, Bool.and_eq_true]
  refine and_congr_left fun _ => ?_
  have hmore : rest.isEmpty = false := by simpa using hrest
  by_cases hplus : level = ['+']
  · subst hplus
    simp [isSingle]
  · simp [isSingle, isPlain, hmore, hplus, and_right_comm]

theorem wellFormed_append_iff {first rest : List Level} (hrest : rest ≠ []) :
    wellFormed (first ++ rest) = true ↔
      (∀ level ∈ first, isSingle level = true) ∧ wellFormed rest = true := by
  induction first with
  | nil => simp
  | cons level first ih =>
    rw [List.cons_append, wellFormed_cons_iff (List.append_ne_nil_of_right_ne_nil _ hrest), ih,
      List.forall_mem_cons, and_assoc]

/-! ## Names put together -/

def Names (text : List Char) : Prop :=
  ∀ level ∈ text.splitOn '/', isPlain level = true

variable {a b : List Char}

/-- Only the last level of the one text and the first of the other become one. -/
theorem exists_splitOn_append (a b : List Char) : ∃ init x y ys, a.splitOn '/' = init ++ [x] ∧
    b.splitOn '/' = y :: ys ∧ (a ++ b).splitOn '/' = init ++ (x ++ y) :: ys := by
  induction a with
  | nil =>
    obtain ⟨y, ys, hb⟩ := List.exists_cons_of_ne_nil (List.splitOn_ne_nil '/' b)
    exact ⟨[], [], y, ys, List.splitOn_nil .., hb, hb⟩
  | cons c a ih =>
    obtain ⟨init, x, y, ys, ha, hb, hab⟩ := ih
    rw [List.cons_append, List.splitOn_cons_eq_if_modifyHead, List.splitOn_cons_eq_if_modifyHead,
      ha, hab]
    by_cases hc : (c == '/') = true
    · rw [if_pos hc, if_pos hc]
      exact ⟨[] :: init, x, y, ys, rfl, hb, rfl⟩
    · rw [if_neg hc, if_neg hc]
      cases init with
      | nil => exact ⟨[], c :: x, y, ys, rfl, hb, rfl⟩
      | cons first init => exact ⟨(c :: first) :: init, x, y, ys, rfl, hb, rfl⟩

theorem isPlain_append {x y : Level} (hx : isPlain x = true) (hy : isPlain y = true) :
    isPlain (x ++ y) = true := by
  simp only [isPlain, Bool.and_eq_true, Bool.not_eq_true', List.contains_eq_mem,
    decide_eq_false_iff_not, List.isEmpty_eq_false_iff, List.mem_append, not_or] at hx hy ⊢
  exact ⟨⟨List.append_ne_nil_of_left_ne_nil hx.1.1 y, hx.1.2, hy.1.2⟩, hx.2, hy.2⟩

theorem not_names_nil : ¬ Names [] := by
  simp [Names, isPlain]

theorem names_append_slash_iff : Names (a ++ '/' :: b) ↔ Names a ∧ Names b := by
  unfold Names
  rw [List.splitOn_append_cons_self, List.forall_mem_append]

theorem names_iff_of_slash_notMem (ha : '/' ∉ a) : Names a ↔ isPlain a = true := by
  have hone : (join [a]).splitOn '/' = [a] :=
    List.splitOn_intercalate '/' (List.forall_mem_singleton.mpr ha) (List.cons_ne_nil a [])
  rw [join, List.intercalate_singleton] at hone
  rw [Names, hone, List.forall_mem_singleton]

theorem Names.append (ha : Names a) (hb : Names b) : Names (a ++ b) := by
  obtain ⟨init, x, y, ys, hsplit, hsplit', happend⟩ := exists_splitOn_append a b
  unfold Names at ha hb ⊢
  rw [hsplit, List.forall_mem_append, List.forall_mem_singleton] at ha
  rw [hsplit', List.forall_mem_cons] at hb
  rw [happend, List.forall_mem_append, List.forall_mem_cons]
  exact ⟨ha.1, isPlain_append ha.2 hb.1, hb.2⟩

end Topic

/-! ## Templates that are names -/

section Substitute

open Topic (Names isPlain names_append_slash_iff names_iff_of_slash_notMem)

variable {placeholder value text : List Char}

/-- Within a level nothing is left over that could be empty or a wildcard. -/
theorem names_substitute_level (hvalue : Names value) (hne : text ≠ [])
    (hchars : ∀ c ∈ text, c ≠ '/' ∧ c ≠ '+' ∧ c ≠ '#') :
    Names (substitute placeholder value text) := by
  have hmore {start rest : List Char} (hstart : Names start)
      (ih : rest ≠ [] → Names (substitute placeholder value rest)) :
      Names (start ++ substitute placeholder value rest) := by
    by_cases hrest : rest = []
    · rwa [hrest, substitute, List.append_nil]
    · exact hstart.append (ih hrest)
  fun_induction substitute placeholder value text with
  | case1 => exact absurd rfl hne
  | case2 c cs _ ih =>
    have hsub : cs.drop (placeholder.length - 1) ⊆ c :: cs :=
      List.Subset.trans (List.drop_subset _ _) (List.subset_cons_self c cs)
    exact hmore hvalue fun hrest => ih hrest fun d hd => hchars d (hsub hd)
  | case3 c cs _ ih =>
    obtain ⟨⟨hslash, hplus, hhash⟩, hlater⟩ := List.forall_mem_cons.mp hchars
    have hc : Names [c] := by
      rw [names_iff_of_slash_notMem (by simpa using hslash.symm)]
      simp [isPlain, hplus.symm, hhash.symm]
    exact hmore hc fun hrest => ih hrest hlater

theorem names_substitute (hne : placeholder ≠ []) (hplace : '/' ∉ placeholder)
    (h : Names text) (hvalue : placeholder <:+: text → Names value) :
    Names (substitute placeholder value text) := by
  induction hlength : text.length using Nat.strongRecOn generalizing text with
  | ind n ih =>
    by_cases hslash : '/' ∈ text
    · obtain ⟨a, b, rfl, -⟩ := List.eq_append_cons_of_mem hslash
      obtain ⟨ha, hb⟩ := names_append_slash_iff.mp h
      have hfront : a <:+: a ++ '/' :: b := (List.prefix_append ..).isInfix
      have hbehind : b <:+: a ++ '/' :: b := ⟨a ++ ['/'], [], by simp⟩
      rw [List.length_append, List.length_cons] at hlength
      rw [substitute_append_slash hne hplace, names_append_slash_iff]
      exact ⟨ih a.length (by omega) ha (fun hin => hvalue (hin.trans hfront)) rfl,
        ih b.length (by omega) hb (fun hin => hvalue (hin.trans hbehind)) rfl⟩
    · by_cases hin : placeholder <:+: text
      · have hplain := (names_iff_of_slash_notMem hslash).mp h
        simp only [isPlain, Bool.and_eq_true, Bool.not_eq_true', List.contains_eq_mem,
          decide_eq_false_iff_not, List.isEmpty_eq_false_iff] at hplain
        obtain ⟨⟨hsome, hplus⟩, hhash⟩ := hplain
        exact names_substitute_level (hvalue hin) hsome fun c hc =>
          ⟨ne_of_mem_of_not_mem hc hslash, ne_of_mem_of_not_mem hc hplus,
            ne_of_mem_of_not_mem hc hhash⟩
      · have hkept : substitute placeholder value text = text := substitute_of_not_infix hin
        rwa [hkept]

end Substitute

namespace Scope

open Topic (Names)

variable {scope : Scope} {s : Session} {username clientId : String}

structure Suits (scope : Scope) (s : Session) : Prop where
  template : ∃ name, Topic.isName name = true ∧
    (scope.template = name ∨ scope.template = name ++ "/")
  username : userPlaceholder <:+: scope.template.toList → Topic.isName s.username = true
  clientId : clientPlaceholder <:+:
    substitute userPlaceholder s.username.toList scope.template.toList → Topic.isName s.id = true

theorem names_toList_iff {text : String} : Names text.toList ↔ Topic.isName text = true :=
  Topic.isName_iff.symm

theorem names_fillText {text : List Char} (htext : Names text)
    (huser : userPlaceholder <:+: text → Topic.isName username = true)
    (hclient : clientPlaceholder <:+: substitute userPlaceholder username.toList text →
      Topic.isName clientId = true) : Names (fillText username clientId text) := by
  have hfirst := names_substitute userPlaceholder_ne_nil slash_notMem_userPlaceholder htext
    fun hin => names_toList_iff.mpr (huser hin)
  exact names_substitute clientPlaceholder_ne_nil slash_notMem_clientPlaceholder hfirst
    fun hin => names_toList_iff.mpr (hclient hin)

theorem Suits.exists_fill (h : scope.Suits s) : ∃ name, Names name ∧
    (scope.fill s.username s.id = name ∨ scope.fill s.username s.id = name ++ ['/']) := by
  obtain ⟨⟨name, hname, htemplate⟩, huser, hclient⟩ := h
  replace hname := names_toList_iff.mpr hname
  rw [fill]
  rcases htemplate with htemplate | htemplate
  · rw [htemplate] at huser hclient ⊢
    exact ⟨_, names_fillText hname huser hclient, .inl rfl⟩
  · have hslash : scope.template.toList = name.toList ++ '/' :: [] := by
      rw [htemplate, String.toList_append]
      rfl
    rw [hslash, substitute_append_slash userPlaceholder_ne_nil slash_notMem_userPlaceholder]
      at hclient ⊢
    rw [hslash] at huser
    rw [substitute_append_slash clientPlaceholder_ne_nil slash_notMem_clientPlaceholder]
    have hname' := names_fillText hname
      (fun hin => huser (hin.trans (List.prefix_append ..).isInfix))
      fun hin => hclient (hin.trans (List.prefix_append ..).isInfix)
    exact ⟨_, hname', .inr (by simp [fillText, substitute])⟩

theorem root_eq_of_names {name : List Char} (h : Names name)
    (hfill : scope.fill username clientId = name ∨ scope.fill username clientId = name ++ ['/']) :
    scope.root username clientId = name ++ ['/'] := by
  unfold root
  rcases hfill with hfill | hfill
  · have hne : name ≠ [] := fun hnil => Topic.not_names_nil (hnil ▸ h)
    have hlast : name.getLast? ≠ some '/' := by
      intro hlast
      obtain ⟨init, rfl⟩ := List.getLast?_eq_some_iff.mp hlast
      exact Topic.not_names_nil (Topic.names_append_slash_iff.mp h).2
    simp [hfill, hne, hlast]
  · simp [hfill]

theorem Suits.plain_rootLevels (h : scope.Suits s) :
    ∀ level ∈ scope.rootLevels s.username s.id, Topic.isPlain level = true := by
  obtain ⟨name, hname, hfill⟩ := h.exists_fill
  rw [rootLevels, root_eq_of_names hname hfill, List.splitOn_append_cons_self, List.splitOn_nil,
    List.dropLast_concat]
  exact hname

end Scope

/-! ## Behind the root -/

/-- What is well formed as the client wrote it is so behind the root exactly if the root is. -/
theorem LocalName.behind_iff {root topic inner : String} {P : String → Prop} {A : Prop}
    (h : LocalName root topic inner) (hroot : ∀ inner, P (root ++ inner) ↔ A ∧ P inner)
    (htopic : P topic) : P (root ++ inner) ↔ A := by
  cases h with
  | inside => exact ⟨fun h => ((hroot _).mp h).1, fun _ => htopic⟩
  | outside => rw [hroot, and_iff_left htopic]

namespace Policy

variable {p : Policy} {s : Session}

theorem isName_forwarded_iff {topic : String} (h : Topic.isName topic = true) :
    Topic.isName (p.localize s topic).forwarded = true ↔
      ∀ level ∈ p.rootLevels s, Topic.isPlain level = true := by
  obtain ⟨hname, hforwarded⟩ := p.localize_localName s topic
  rw [hforwarded]
  refine hname.behind_iff (P := fun topic => Topic.isName topic = true) (fun inner => ?_) h
  rw [Topic.isName_iff, Topic.isName_iff, levels_root_append, List.forall_mem_append]

theorem isFilter_forwarded_iff {filter : String} (h : Topic.isFilter filter = true) :
    Topic.isFilter (p.localize s filter).forwarded = true ↔
      ∀ level ∈ p.rootLevels s, Topic.isSingle level = true := by
  obtain ⟨hname, hforwarded⟩ := p.localize_localName s filter
  rw [hforwarded]
  refine hname.behind_iff (P := fun filter => Topic.isFilter filter = true) (fun inner => ?_) h
  rw [Topic.isFilter, levels_root_append, Topic.wellFormed_append_iff (Topic.levels_ne_nil inner)]
  rfl

/-! ## Asking again -/

theorem authorizePublish_again_iff {content sent : Publication}
    (h : p.authorizePublish s content = .ok sent) :
    (p.authorizePublish s sent = .ok sent ↔ Topic.isName sent.topic = true) ∧
      (Topic.isName sent.topic = true ↔
        ∀ level ∈ p.rootLevels s, Topic.isPlain level = true) := by
  obtain ⟨hname, hallowed, rfl⟩ := authorizePublish_eq_ok_iff.mp h
  refine ⟨?_, isName_forwarded_iff hname⟩
  rw [authorizePublish_eq_ok_iff, p.localize_forwarded, and_iff_left ⟨hallowed, rfl⟩]

theorem authorizeFilter_again_iff {filter forwarded : String}
    (h : p.authorizeFilter s filter = .ok forwarded) :
    (p.authorizeFilter s forwarded = .ok forwarded ↔ Topic.isFilter forwarded = true) ∧
      (Topic.isFilter forwarded = true ↔
        ∀ level ∈ p.rootLevels s, Topic.isSingle level = true) := by
  obtain ⟨hfilter, hallowed, rfl⟩ := authorizeFilter_eq_ok_iff.mp h
  refine ⟨?_, isFilter_forwarded_iff hfilter⟩
  rw [authorizeFilter_eq_ok_iff, p.localize_forwarded, and_iff_left ⟨hallowed, rfl⟩]

theorem authorizeSubscribe_again_iff {filters sent : List String}
    (h : p.authorizeSubscribe s filters = .ok sent) :
    (p.authorizeSubscribe s sent = .ok sent ↔ ∀ filter ∈ sent, Topic.isFilter filter = true) ∧
      ((∀ filter ∈ sent, Topic.isFilter filter = true) ↔
        sent = [] ∨ ∀ level ∈ p.rootLevels s, Topic.isSingle level = true) := by
  have hagain (filter : String) (hfilter : filter ∈ sent) :=
    (exists_of_mem_mapM h filter hfilter).elim fun _ hasked => authorizeFilter_again_iff hasked.2
  constructor
  · rw [authorizeSubscribe, mapM_eq_ok_iff, List.forall₂_same]
    exact forall₂_congr fun filter hfilter => (hagain filter hfilter).1
  · constructor
    · intro hsent
      refine or_iff_not_imp_left.mpr fun hne => ?_
      obtain ⟨filter, hfilter⟩ := List.exists_mem_of_ne_nil sent hne
      exact (hagain filter hfilter).2.mp (hsent filter hfilter)
    · rintro (rfl | hroot) filter hfilter
      · cases hfilter
      · exact (hagain filter hfilter).2.mpr hroot

/-- What was forwarded is accepted again, and unchanged, if it is well formed, and it is well formed
exactly if the root of the session is: so it is if the template and what is put into it are names.
-/
theorem accepted_again_iff (p : Policy) (s : Session) :
    (∀ content sent, p.authorizePublish s content = .ok sent →
      (p.authorizePublish s sent = .ok sent ↔ Topic.isName sent.topic = true) ∧
      (Topic.isName sent.topic = true ↔
        ∀ level ∈ p.rootLevels s, Topic.isPlain level = true)) ∧
    (∀ filters sent, p.authorizeSubscribe s filters = .ok sent →
      (p.authorizeSubscribe s sent = .ok sent ↔
        ∀ filter ∈ sent, Topic.isFilter filter = true) ∧
      ((∀ filter ∈ sent, Topic.isFilter filter = true) ↔
        sent = [] ∨ ∀ level ∈ p.rootLevels s, Topic.isSingle level = true)) ∧
    ((∀ scope, p.scope = some scope → scope.Suits s) →
      ∀ level ∈ p.rootLevels s, Topic.isPlain level = true ∧ Topic.isSingle level = true) := by
  refine ⟨fun _ _ => authorizePublish_again_iff, fun _ _ => authorizeSubscribe_again_iff,
    fun hsuits level hlevel => ?_⟩
  unfold rootLevels at hlevel
  cases hscope : p.scope with
  | none =>
    rw [hscope] at hlevel
    cases hlevel
  | some scope =>
    rw [hscope] at hlevel
    have hplain := (hsuits scope hscope).plain_rootLevels level hlevel
    exact ⟨hplain, by rw [Topic.isSingle, hplain, Bool.or_true]⟩

theorem acme_accepted_again :
    branches.Suits { username := "acme" } ∧
    (let p : Policy := ⟨{}, some branches⟩
     let s : Session := { username := "acme" }
     p.authorizePublish s ⟨"x", []⟩ = .ok ⟨"tenants/acme/x", []⟩ ∧
      p.authorizePublish s ⟨"tenants/acme/x", []⟩ = .ok ⟨"tenants/acme/x", []⟩ ∧
      p.authorizeSubscribe s ["+/y", "#"] = .ok ["tenants/acme/+/y", "tenants/acme/#"] ∧
      p.authorizeSubscribe s ["tenants/acme/+/y", "tenants/acme/#"] =
        .ok ["tenants/acme/+/y", "tenants/acme/#"]) := by
  have hsuits : branches.Suits { username := "acme" } :=
    ⟨⟨branches.template, by decide +kernel, .inl rfl⟩, fun _ => by decide +kernel,
      fun hin => absurd hin (by decide +kernel)⟩
  have hpublish : (Policy.mk {} (some branches)).authorizePublish { username := "acme" } ⟨"x", []⟩ =
      .ok ⟨"tenants/acme/x", []⟩ := by decide +kernel
  have hsubscribe : (Policy.mk {} (some branches)).authorizeSubscribe { username := "acme" }
      ["+/y", "#"] = .ok ["tenants/acme/+/y", "tenants/acme/#"] := by decide +kernel
  obtain ⟨hpublished, hsubscribed, hroot⟩ :=
    accepted_again_iff ⟨{}, some branches⟩ { username := "acme" }
  replace hroot := hroot (by rintro _ ⟨⟩; exact hsuits)
  obtain ⟨hsame, hname⟩ := hpublished _ _ hpublish
  obtain ⟨hsame', hfilters⟩ := hsubscribed _ _ hsubscribe
  exact ⟨hsuits, hpublish, hsame.mpr (hname.mpr fun level hlevel => (hroot level hlevel).1),
    hsubscribe, hsame'.mpr (hfilters.mpr (.inr fun level hlevel => (hroot level hlevel).2))⟩

/-- A username that is a wildcard is put where neither a name nor a filter may have it. A client
without a username gets an empty level if the template goes on behind the placeholder. -/
theorem wildcard_refused_again :
    Topic.levels branches.template = ["tenants".toList, Scope.userPlaceholder] ∧
    (let p : Policy := ⟨{}, some branches⟩
     let s : Session := { username := "#" }
     p.authorizePublish s ⟨"x", []⟩ = .ok ⟨"tenants/#/x", []⟩ ∧
      p.authorizePublish s ⟨"tenants/#/x", []⟩ = .error (.badName "tenants/#/x") ∧
      p.authorizeSubscribe s ["x"] = .ok ["tenants/#/x"] ∧
      p.authorizeSubscribe s ["tenants/#/x"] = .error (.badFilter "tenants/#/x")) ∧
    (let p : Policy := ⟨{}, some ⟨"tenants/\x7busername\x7d/data"⟩⟩
     p.authorizePublish {} ⟨"x", []⟩ = .ok ⟨"tenants//data/x", []⟩ ∧
      p.authorizePublish {} ⟨"tenants//data/x", []⟩ = .error (.badName "tenants//data/x")) := by
  refine ⟨levels_branches, ?_⟩
  decide +kernel

end Policy
end MqttGateway
