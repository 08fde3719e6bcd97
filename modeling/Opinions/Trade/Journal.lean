import Opinions.Trade.Frame

/-! The ledger as a journal. Every balance is the sum of what the booked transactions
say of the account, and no key is booked twice; a change `Extends keep` the journal
when it books transactions that touch no account of `keep`. A fact about a balance is
then a fact about the transactions. -/

namespace Opinions.Trade

open Domain.Ledger Model Opinions.Store

structure Journal (l : Ledger) : Prop where
  keys : (l.txns.map LedgerTxn.key).Nodup
  balanceOf : ∀ k, l.balanceOf k = (l.txns.map fun t => delta t.entries k).sum

theorem journal_empty : Journal Ledger.empty := ⟨List.nodup_nil, fun _ => rfl⟩

variable {l l' : Ledger} {key : String}

theorem Journal.account (h : Journal l) (k : AccountKey) : Journal (l.account k) :=
  ⟨h.keys, fun k' => (l.balanceOf_account k k').trans (h.balanceOf k')⟩

variable {entries : List (Entry AccountKey)} {kind : TxnKind}

theorem Journal.applied (h : Journal l) (ha : l.Applied kind key entries l') :
    Journal l' where
  keys := by
    rw [ha.txns, List.map_append, List.map_singleton]
    simpa using h.keys.concat ha.fresh
  balanceOf := fun k => by
    rw [ha.balanceOf, h.balanceOf, ha.txns, List.map_append, List.sum_append]
    simp

variable {keep : AccountKey → Prop}

structure Extends (keep : AccountKey → Prop) (l l' : Ledger) : Prop where
  added : ∃ extra, l'.txns = l.txns ++ extra ∧ ∀ t ∈ extra, ∀ e ∈ t.entries, ¬keep e.account
  journal : Journal l → Journal l'

theorem Extends.refl (l : Ledger) : Extends keep l l :=
  ⟨⟨[], by simp⟩, id⟩

theorem Extends.trans {l₁ l₂ l₃ : Ledger} (h₁ : Extends keep l₁ l₂) (h₂ : Extends keep l₂ l₃) :
    Extends keep l₁ l₃ := by
  obtain ⟨⟨xs, hxs, hxk⟩, hj₁⟩ := h₁
  obtain ⟨⟨ys, hys, hyk⟩, hj₂⟩ := h₂
  refine ⟨⟨xs ++ ys, by rw [hys, hxs, List.append_assoc], fun t ht => ?_⟩, fun h => hj₂ (hj₁ h)⟩
  rcases List.mem_append.1 ht with ht | ht
  · exact hxk t ht
  · exact hyk t ht

theorem Extends.account (l : Ledger) (k : AccountKey) : Extends keep l (l.account k) :=
  ⟨⟨[], by simp⟩, fun h => h.account k⟩

theorem Extends.applied (h : l.ledgerApply kind key entries = .ok l')
    (hne : ∀ e ∈ entries, ¬keep e.account) : Extends keep l l' := by
  have ha := Ledger.ledgerApply_spec h
  refine ⟨⟨_, ha.txns, fun t ht => ?_⟩, fun hj => hj.applied ha⟩
  obtain rfl := List.mem_singleton.1 ht
  exact hne

theorem Extends.openAll (l : Ledger) (entries : List (Entry AccountKey)) :
    Extends keep l (openAll l entries) := by
  induction entries generalizing l with
  | nil => exact Extends.refl l
  | cons e entries ih => exact (Extends.account l _).trans (ih _)

theorem Extends.convertThenCollect {user : UserId} (hkeep : ∀ k ∈ ingressAccounts user, ¬keep k)
    {lots : List LotFact} {receivables : List Int}
    (h : convertThenCollect l user key lots receivables = .ok l') : Extends keep l l' := by
  have hextends : Ingressive user (Extends keep) :=
    ⟨Extends.refl, Extends.trans, Extends.account,
      fun happly hin => Extends.applied happly fun e he => hkeep _ (hin e he)⟩
  exact hextends.convertThenCollect h

end Opinions.Trade
