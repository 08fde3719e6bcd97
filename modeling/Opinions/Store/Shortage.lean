import Opinions.Lib.Outcome
import Opinions.Store.Accounts

/-! Which account a posting refused for want of funds names: one whose balance the entries
would take below zero. -/

namespace Opinions.Store

open Lib.Checked Lib.Outcome Lib.Result Lib.Tally Domain.Ledger

/-- If the error says an account lacks funds, that account does. -/
def NamesShort {α : Type} (b : Balances α) [DecidableEq α] (entries : List (Entry α))
    (e : LedgerError α) : Prop :=
  ∀ a, e = .insufficientFunds a → ∃ r, b.account a = some r ∧ r.balance + delta entries a < 0

variable {α : Type} [DecidableEq α] {b : Balances α} {entries : List (Entry α)}

theorem tally_namesShort {β κ : Type} [DecidableEq κ] {key : β → Except (LedgerError α) κ}
    {val : β → Int} {xs : List β} (hkey : ∀ x, Ends (fun _ => True) (NamesShort b entries) (key x)) :
    Ends (fun m => Tallied key val xs m) (NamesShort b entries) (tally key val .overflow xs) := by
  refine ends_iff.2 ⟨fun m => tally_spec, ?_⟩
  have h : Ends (fun _ => True) (NamesShort b entries) (tally key val .overflow xs) := by
    refine ends_foldlM (P := fun _ _ => True) trivial fun x rest m _ => (hkey x).bind fun k _ => ?_
    exact (ends_okOr (by rintro _ ⟨⟩)).mono fun _ _ => trivial
  exact fun e => h.of_error

theorem post_namesShort {p : α × Int} (hp : p.2 = delta entries p.1) :
    Ends (fun _ => True) (NamesShort b entries) (b.post p) := by
  unfold Balances.post
  refine (ends_okOr (by rintro _ ⟨⟩)).bind fun r hr => ?_
  refine (ends_okOr (by rintro _ ⟨⟩)).bind fun wide hwide => ?_
  refine (ends_okOr (by rintro _ ⟨⟩)).bind fun post hpost => ?_
  refine (ends_iff.2 ⟨fun _ _ => trivial, fun e he => ?_⟩).bind fun _ _ => trivial
  intro a hea
  by_cases hshort : post < 0 ∧ r.owner ≠ .external
  · rw [refuse_pos hshort] at he
    obtain rfl := Except.error.inj he
    obtain rfl := LedgerError.insufficientFunds.inj hea
    refine ⟨r, hr, ?_⟩
    rw [← hp, (checkedI128_eq_some.1 hwide).1, (tryI64_eq_some.1 hpost).1]
    exact hshort.1
  · rw [refuse_neg hshort] at he
    cases he

theorem posts_namesShort {t : Traversal α} {txn : Transaction α} :
    Ends (fun _ => True) (NamesShort b txn.entries.list) (b.posts t txn) := by
  unfold Balances.posts
  have hdeltas : Ends (fun m => Aggregated txn.entries.list m) (NamesShort b txn.entries.list)
      (tally (fun e => .ok e.account) Entry.amount .overflow txn.entries.list) :=
    tally_namesShort fun _ => trivial
  refine hdeltas.bind fun deltas hdeltas => (tally_namesShort fun p => ?_).bind fun sums _ => ?_
  · unfold Balances.currencyOf
    cases b.account p.1 with
    | none => rintro _ ⟨⟩
    | some => trivial
  refine (ends_forM fun p _ => (ends_refuse (by rintro _ ⟨⟩)).mono fun _ _ => trivial).bind fun _ _ => ?_
  refine (ends_mapM fun p hp => post_namesShort ?_).mono fun _ _ => trivial
  exact Aggregated.snd_eq_delta hdeltas ((t.posted_perm deltas).mem_iff.1 hp)

namespace Ledger

theorem new_not_short {kind : TxnKind} {vec : EntryVec AccountKey} :
    Ends (fun txn => txn.entries = vec) (fun e => ∀ k, e ≠ .insufficientFunds k)
      (Transaction.new kind vec) := by
  refine ends_iff.2 ⟨fun txn => entries_of_new, fun e he => ?_⟩
  unfold Transaction.new at he
  split_ifs at he <;> obtain rfl := Except.error.inj he <;> rintro _ ⟨⟩

/-- A posting names an account as short only when it is. -/
theorem ledgerApply_short {l : Ledger} {kind : TxnKind} {key : String}
    {entries : List (Entry AccountKey)} :
    Ends (fun l' => Applied l kind key entries l')
      (fun e => ∀ k, e = .ledger (.insufficientFunds k) → l.balanceOf k + delta entries k < 0)
      (l.ledgerApply kind key entries) := by
  refine ends_iff.2 ⟨fun l' => ledgerApply_spec, ?_⟩
  suffices h : Ends (fun _ => True)
      (fun e => ∀ k, e = .ledger (.insufficientFunds k) → l.balanceOf k + delta entries k < 0)
      (l.ledgerApply kind key entries) from fun _ => h.of_error
  unfold ledgerApply
  refine (ends_okOr (by rintro _ ⟨⟩)).bind fun vec hvec => ?_
  have hlist : vec.list = entries := by
    unfold entryVec at hvec
    split_ifs at hvec
    rw [← Option.some.inj hvec]
  refine (ends_mapError (new_not_short.imp (fun _ => id) ?_)).bind fun txn htxn => ?_
  · intro e he k hk
    exact absurd (StoreError.ledger.inj hk) (he k)
  refine (ends_mapError (posts_namesShort.imp (fun _ => id) ?_)).bind fun posts _ => ?_
  · intro e he k hk
    obtain ⟨r, hr, hshort⟩ := he k (StoreError.ledger.inj hk)
    rw [htxn, hlist] at hshort
    have hbal : l.balanceOf k = r.balance := by
      rw [balanceOf, Balances.balance, hr]
      rfl
    rwa [hbal]
  exact (ends_refuse (by rintro _ ⟨⟩)).bind fun _ _ => trivial

end Ledger

end Opinions.Store
