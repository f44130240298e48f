import Mathlib.Data.List.Chain
import MqttGateway.Tls.Terminator
/-!
# Chains led up by name

The chain of a client starts with the first certificate presented and goes from each certificate to
the first that is named as its issuer. It may end anywhere on the way.
-/
namespace MqttGateway.Tls

variable (presented authorities : List Certificate)

def Follows (c d : Certificate) : Prop :=
  issuer? presented authorities c = some d

theorem extend_eq_append (fuel : Nat) (before : List Certificate) (last : Certificate) :
    ∃ more, extend presented authorities fuel before last = before ++ more ∧
      (last :: more).IsChain (Follows presented authorities) := by
  induction fuel generalizing before last with
  | zero => exact ⟨[], (List.append_nil before).symm, .singleton last⟩
  | succ fuel ih =>
    have hends : ∃ more, before = before ++ more ∧
        (last :: more).IsChain (Follows presented authorities) :=
      ⟨[], (List.append_nil before).symm, .singleton last⟩
    rw [extend]
    split
    · exact hends
    split
    case h_1 => exact hends
    case h_2 issuer hissuer =>
    split
    · exact hends
    obtain ⟨more, heq, hmore⟩ := ih (before ++ [issuer]) issuer
    refine ⟨issuer :: more, ?_, ?_⟩
    · rw [heq, List.append_assoc, List.singleton_append]
    · exact List.isChain_cons_cons.mpr ⟨hissuer, hmore⟩

theorem chain_eq_cons (leaf : Certificate) (rest : List Certificate) :
    ∃ more, chain (leaf :: rest) authorities = leaf :: more ∧
      (leaf :: more).IsChain (Follows (leaf :: rest) authorities) :=
  extend_eq_append _ _ _ [leaf] leaf

theorem chain_isChain : (chain presented authorities).IsChain (Follows presented authorities) := by
  cases presented with
  | nil => exact .nil
  | cons leaf rest =>
    obtain ⟨more, heq, hchain⟩ := chain_eq_cons authorities leaf rest
    rw [heq]
    exact hchain

theorem head?_chain : (chain presented authorities).head? = presented.head? := by
  cases presented with
  | nil => rfl
  | cons leaf rest =>
    obtain ⟨more, heq, -⟩ := chain_eq_cons authorities leaf rest
    rw [heq]
    rfl

theorem chain_eq_nil_iff : chain presented authorities = [] ↔ presented = [] := by
  rw [← List.head?_eq_none_iff, head?_chain, List.head?_eq_none_iff]

end MqttGateway.Tls
