import Mathlib.Data.List.Nodup
import Mathlib.Data.List.Perm.Subperm
import MqttGateway.Proofs.Tls.Lookalikes
/-!
# How far a chain is led up

A chain goes on from a certificate to the first certificate that is named as its issuer, presented
certificates before authorities, and never to a certificate that it has passed. It cannot have more
certificates than there are, so that the bound on its length is never reached. Main statement: the
chain is the only list that starts with the leaf, goes on in this way and stops where it has to.
-/
namespace MqttGateway

def Certificate.Names (c issuer : Certificate) : Prop :=
  issuer.der ≠ c.der ∧ c.isIssuedBy issuer = true

namespace Tls

def IsFirstNamed (candidates : List Certificate) (c issuer : Certificate) : Prop :=
  c.Names issuer ∧ ∃ before after, candidates = before ++ issuer :: after ∧
    ∀ d ∈ before, ¬ c.Names d

section Chains
variable (presented authorities : List Certificate)

/-- The issuer that a chain goes on to. An authority is only chosen if no presented certificate is
named. -/
inductive IsChosen (c issuer : Certificate) : Prop
  | presented : IsFirstNamed presented c issuer → IsChosen c issuer
  | authority : (∀ d ∈ presented, ¬ c.Names d) → IsFirstNamed authorities c issuer →
      IsChosen c issuer

structure LeadsTo (c issuer : Certificate) : Prop where
  notRoot : c.isRootCa = false
  chosen : IsChosen presented authorities c issuer

inductive IsFinal (cs : List Certificate) (last : Certificate) : Prop
  | root : last.isRootCa = true → IsFinal cs last
  | orphan : (∀ d, d ∈ presented ∨ d ∈ authorities → ¬ last.Names d) → IsFinal cs last
  | passed {issuer : Certificate} : IsChosen presented authorities last issuer → issuer ∈ cs →
      IsFinal cs last

structure IsWay (cs : List Certificate) : Prop where
  starts : cs.head? = presented.head?
  nodup : cs.Nodup
  known : ∀ c ∈ cs, c ∈ presented ∨ c ∈ authorities
  leads : cs.IsChain (LeadsTo presented authorities)

structure IsLedUp (cs : List Certificate) : Prop extends IsWay presented authorities cs where
  stops : ∀ last, cs.getLast? = some last → IsFinal presented authorities cs last

end Chains

/-! ## The issuer that is chosen -/

variable {presented authorities candidates cs : List Certificate} {c d last issuer : Certificate}

theorem findIssuer?_eq_some_iff :
    c.findIssuer? candidates = some issuer ↔ IsFirstNamed candidates c issuer := by
  rw [Certificate.findIssuer?, List.find?_eq_some_iff_append]
  simp [IsFirstNamed, Certificate.Names, or_iff_not_imp_left]

theorem findIssuer?_eq_none_iff :
    c.findIssuer? candidates = none ↔ ∀ d ∈ candidates, ¬ c.Names d := by
  rw [Certificate.findIssuer?, List.find?_eq_none]
  simp [Certificate.Names]

theorem follows_iff_isChosen :
    Follows presented authorities c issuer ↔ IsChosen presented authorities c issuer := by
  rw [Follows, issuer?, Option.or_eq_some_iff, findIssuer?_eq_some_iff, findIssuer?_eq_some_iff,
    findIssuer?_eq_none_iff]
  constructor
  · rintro (hfirst | ⟨hnone, hfirst⟩)
    · exact .presented hfirst
    · exact .authority hnone hfirst
  · intro h
    cases h with
    | presented hfirst => exact .inl hfirst
    | authority hnone hfirst => exact .inr ⟨hnone, hfirst⟩

theorem issuer?_eq_none_iff : issuer? presented authorities c = none ↔
    ∀ d, d ∈ presented ∨ d ∈ authorities → ¬ c.Names d := by
  rw [issuer?, Option.or_eq_none_iff, findIssuer?_eq_none_iff, findIssuer?_eq_none_iff]
  constructor
  · rintro ⟨hpresented, hauthorities⟩ d (hd | hd)
    · exact hpresented d hd
    · exact hauthorities d hd
  · intro h
    exact ⟨fun d hd => h d (.inl hd), fun d hd => h d (.inr hd)⟩

theorem IsFirstNamed.mem (h : IsFirstNamed candidates c issuer) : issuer ∈ candidates := by
  obtain ⟨-, before, after, rfl, -⟩ := h
  exact List.mem_append_right before List.mem_cons_self

theorem IsChosen.known (h : IsChosen presented authorities c issuer) :
    issuer ∈ presented ∨ issuer ∈ authorities := by
  cases h with
  | presented hfirst => exact .inl hfirst.mem
  | authority _ hfirst => exact .inr hfirst.mem

/-! ## Going on -/

namespace IsWay

theorem start (leaf : Certificate) (rest authorities : List Certificate) :
    IsWay (leaf :: rest) authorities [leaf] where
  starts := rfl
  nodup := by simp
  known := by simp
  leads := .singleton leaf

theorem goOn (h : IsWay presented authorities cs) (hlast : cs.getLast? = some last)
    (hleads : LeadsTo presented authorities last issuer) (hnew : issuer ∉ cs) :
    IsWay presented authorities (cs ++ [issuer]) := by
  have hsome : cs ≠ [] := by
    rintro rfl
    cases hlast
  refine ⟨?_, ?_, ?_, ?_⟩
  · rw [List.head?_append_of_ne_nil cs hsome]
    exact h.starts
  · rw [← List.concat_eq_append, List.nodup_concat]
    exact ⟨hnew, h.nodup⟩
  · intro c hc
    obtain hc | hc := List.mem_append.mp hc
    · exact h.known c hc
    · rw [List.mem_singleton.mp hc]
      exact hleads.chosen.known
  · refine List.isChain_append.mpr ⟨h.leads, .singleton issuer, ?_⟩
    intro c hc d hd
    rw [hlast] at hc
    obtain rfl := Option.some.inj hc
    obtain rfl := Option.some.inj hd
    exact hleads

/-- No certificate is passed twice, so a way is not longer than there are certificates. -/
theorem length_le (h : IsWay presented authorities cs) :
    cs.length ≤ presented.length + authorities.length := by
  have hsub : cs ⊆ presented ++ authorities := by
    intro c hc
    exact List.mem_append.mpr (h.known c hc)
  rw [← List.length_append]
  exact (List.subperm_of_subset h.nodup hsub).length_le

theorem isLedUp (h : IsWay presented authorities cs) (hlast : cs.getLast? = some last)
    (hfinal : IsFinal presented authorities cs last) : IsLedUp presented authorities cs := by
  refine ⟨h, ?_⟩
  intro last' hlast'
  obtain rfl : last = last' := Option.some.inj (hlast.symm.trans hlast')
  exact hfinal

/-- A way is led up to its end, if the bound allows more certificates than there are. -/
theorem isLedUp_extend {fuel : Nat} (h : IsWay presented authorities cs)
    (hlast : cs.getLast? = some last)
    (hfuel : presented.length + authorities.length < fuel + cs.length) :
    IsLedUp presented authorities (extend presented authorities fuel cs last) := by
  induction fuel generalizing cs last with
  | zero =>
    have hlength := h.length_le
    omega
  | succ fuel ih =>
    rw [extend]
    split
    case isTrue hroot => exact h.isLedUp hlast (.root hroot)
    case isFalse hroot =>
    split
    case h_1 hnone => exact h.isLedUp hlast (.orphan (issuer?_eq_none_iff.mp hnone))
    case h_2 issuer hissuer =>
    have hchosen := follows_iff_isChosen.mp hissuer
    split
    case isTrue hpassed =>
      exact h.isLedUp hlast (.passed hchosen (List.contains_iff_mem.mp hpassed))
    case isFalse hnew =>
    rw [List.contains_iff_mem] at hnew
    have hleads : LeadsTo presented authorities last issuer :=
      ⟨Bool.eq_false_iff.mpr hroot, hchosen⟩
    refine ih (h.goOn hlast hleads hnew) List.getLast?_concat ?_
    rw [List.length_append, List.length_singleton]
    omega

end IsWay

/-! ## The chain -/

namespace IsLedUp

/-- Where one chain stops another cannot go on. -/
theorem not_leadsTo (h : IsLedUp presented authorities cs) (hlast : cs.getLast? = some last)
    (hnew : issuer ∉ cs) : ¬ LeadsTo presented authorities last issuer := by
  intro hleads
  have hfollows := follows_iff_isChosen.mpr hleads.chosen
  cases h.stops last hlast with
  | root hroot => exact Bool.false_ne_true (hleads.notRoot.symm.trans hroot)
  | orphan hnone =>
    rw [← issuer?_eq_none_iff] at hnone
    exact Option.some_ne_none _ (hfollows.symm.trans hnone)
  | passed hchosen hpassed =>
    have hsame := (follows_iff_isChosen.mpr hchosen).symm.trans hfollows
    exact hnew (Option.some.inj hsame ▸ hpassed)

theorem eq_of_isPrefix {ds : List Certificate} (hc : IsLedUp presented authorities cs)
    (hd : IsWay presented authorities ds) (hbegins : cs <+: ds) : cs = ds := by
  obtain ⟨more, rfl⟩ := hbegins
  cases more with
  | nil => exact (List.append_nil cs).symm
  | cons d more =>
    exfalso
    cases hlast : cs.getLast? with
    | none =>
      obtain rfl := List.getLast?_eq_none_iff.mp hlast
      have hsame := hc.starts.trans hd.starts.symm
      cases hsame
    | some last =>
      have hleads : LeadsTo presented authorities last d :=
        (List.isChain_append.mp hd.leads).2.2 last hlast d rfl
      have hnew : d ∉ cs := by
        have hnodup := List.nodup_middle.mp hd.nodup
        exact fun hpassed => (List.nodup_cons.mp hnodup).1 (List.mem_append_left more hpassed)
      exact hc.not_leadsTo hlast hnew hleads

theorem unique {ds : List Certificate} (hc : IsLedUp presented authorities cs)
    (hd : IsLedUp presented authorities ds) : cs = ds := by
  have hsame := hc.starts.trans hd.starts.symm
  cases cs with
  | nil => exact (List.head?_eq_none_iff.mp hsame.symm).symm
  | cons leaf as =>
    obtain ⟨bs, rfl⟩ := List.head?_eq_some_iff.mp hsame.symm
    have hfollows : ∀ c d, LeadsTo presented authorities c d → Follows presented authorities c d :=
      fun c d h => follows_iff_isChosen.mpr h.chosen
    obtain hbegins | hbegins := isPrefix_or_isPrefix (hc.leads.imp hfollows) (hd.leads.imp hfollows)
    · exact hc.eq_of_isPrefix hd.toIsWay (List.cons_prefix_cons.mpr ⟨rfl, hbegins⟩)
    · exact (hd.eq_of_isPrefix hc.toIsWay (List.cons_prefix_cons.mpr ⟨rfl, hbegins⟩)).symm

end IsLedUp

theorem chain_isLedUp (presented authorities : List Certificate) :
    IsLedUp presented authorities (chain presented authorities) := by
  cases presented with
  | nil => exact ⟨⟨rfl, List.nodup_nil, by simp [chain], .nil⟩, by simp [chain]⟩
  | cons leaf rest =>
    refine (IsWay.start leaf rest authorities).isLedUp_extend rfl ?_
    rw [List.length_singleton]
    omega

/-- The chain is the one list that is led up from the leaf, and it is empty only if there is no
leaf. It has no more certificates than there are, and no greater bound makes it longer. -/
theorem chain_eq_iff_isLedUp (presented authorities : List Certificate) :
    (∀ cs, chain presented authorities = cs ↔ IsLedUp presented authorities cs) ∧
    (chain presented authorities = [] ↔ presented = []) ∧
    (chain presented authorities).length ≤ presented.length + authorities.length ∧
    ∀ leaf ∈ presented.head?, ∀ bound ≥ presented.length + authorities.length,
      extend presented authorities bound [leaf] leaf = chain presented authorities := by
  have hchain := chain_isLedUp presented authorities
  refine ⟨?_, chain_eq_nil_iff presented authorities, hchain.length_le, ?_⟩
  · intro cs
    constructor
    · rintro rfl
      exact hchain
    · exact hchain.unique
  · intro leaf hleaf bound hbound
    obtain ⟨rest, rfl⟩ := List.head?_eq_some_iff.mp hleaf
    have hroom : (leaf :: rest).length + authorities.length < bound + [leaf].length := by
      rw [List.length_singleton]
      omega
    exact ((IsWay.start leaf rest authorities).isLedUp_extend rfl hroom).unique hchain

end Tls
end MqttGateway
