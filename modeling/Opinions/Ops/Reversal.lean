import Opinions.Lib.Outcome
import Opinions.Trade.Frame

/-! The reversal of a market's postings (`application/src/ops/unwind_market.rs`). A
transaction is the market's when one of its entries is on the market's escrow or pool.
Every account is given back the negation of what those transactions did to it. A user who
must pay pays what cash they have; the house covers the rest, which is then owed. -/

namespace Opinions.Ops

open Lib.Checked Lib.Outcome Lib.Result Lib.Rows Lib.Tally Domain.Ledger Model Store Trade

def unwindLedgerKey (m : MarketId) : String := "unwind:" ++ String.ofList m.uuid.text

def isMarketAccount (m : MarketId) (k : AccountKey) : Bool :=
  k.owner = .marketEscrow m ∨ k.owner = .marketPool m

def marketLedgerTxns (l : Ledger) (m : MarketId) : List LedgerTxn :=
  l.txns.filter fun t => t.entries.any fun e => isMarketAccount m e.account

def subtractEntry (net : List (AccountKey × Int)) (e : Entry AccountKey) :
    Except AppError (List (AccountKey × Int)) := do
  let next ← okOr (tryI64 (amount e.account net - e.amount)) .overflow
  pure (put net e.account next)

def subtractTxn (net : List (AccountKey × Int)) (t : LedgerTxn) :
    Except AppError (List (AccountKey × Int)) := do
  refuse (t.kind = .reversal) (.proposalConflict "market already carries a reversal")
  t.entries.foldlM subtractEntry net

structure Legs where
  entries : List (Entry AccountKey)
  shortfalls : List (UserId × Int)

/-- A user's debit is cut to their cash. -/
def debitUser (l : Ledger) (legs : Legs) (k : AccountKey) (user : UserId) (owed : Int) :
    Except AppError Legs := do
  let debit ← okOr (tryI64 (-owed)) .overflow
  let pay := min debit (max (l.balanceOf k) 0)
  pure { entries := if 0 < pay then legs.entries ++ [⟨k, -pay⟩] else legs.entries
         shortfalls :=
          if 0 < debit - pay then legs.shortfalls ++ [(user, debit - pay)] else legs.shortfalls }

def reverseLeg (l : Ledger) (legs : Legs) (p : AccountKey × Int) : Except AppError Legs :=
  if p.2 = 0 then pure legs
  else
    match p.1.owner with
    | .user user =>
      if p.2 < 0 then debitUser l legs p.1 user p.2
      else pure { legs with entries := legs.entries ++ [⟨p.1, p.2⟩] }
    | _ => pure { legs with entries := legs.entries ++ [⟨p.1, p.2⟩] }

def shortfallTotal (shortfalls : List (UserId × Int)) : Except AppError Int :=
  shortfalls.foldlM (fun total p => okOr (tryI64 (total + p.2)) .overflow) 0

/-- The entries of the reversal and the shortfalls it books. -/
def reversal (l : Ledger) (m : MarketId) : Except AppError Legs := do
  let net ← (marketLedgerTxns l m).foldlM subtractTxn []
  let house := cash .house
  let legs ← (net.filter fun p => p.1 ≠ house).foldlM (reverseLeg l) ⟨[], []⟩
  let houseAmount := amount house net
  let total ← shortfallTotal legs.shortfalls
  let returned := if houseAmount ≠ 0 then [⟨house, houseAmount⟩] else []
  -- a separate leg: the negative house entries are the record of the shortfalls
  let covered := if 0 < total then [⟨house, -total⟩] else []
  pure { legs with entries := legs.entries ++ returned ++ covered }

/-- Accounts of the entries that were taken back so far. -/
def Within (accounts : AccountKey → Prop) (net : List (AccountKey × Int)) : Prop :=
  ∀ p ∈ net, accounts p.1

variable {net : List (AccountKey × Int)} {l : Ledger}

section Accounts

variable {accounts : AccountKey → Prop} {E : AppError → Prop} (hoverflow : E .overflow)
include hoverflow

theorem subtractEntry_within {e : Entry AccountKey} (hnet : Within accounts net)
    (he : accounts e.account) : Ends (Within accounts) E (subtractEntry net e) := by
  unfold subtractEntry
  refine (ends_okOr hoverflow).bind fun next _ => ends_pure fun p hp => ?_
  rcases mem_of_mem_upsert hp with rfl | hp
  · exact he
  · exact hnet p hp

theorem subtractTxn_within (hconflict : ∀ why, E (.proposalConflict why)) {t : LedgerTxn}
    (hnet : Within accounts net) (ht : ∀ e ∈ t.entries, accounts e.account) :
    Ends (Within accounts) E (subtractTxn net t) := by
  unfold subtractTxn
  refine (ends_refuse (hconflict _)).bind fun _ _ => ?_
  refine (ends_foldlM (P := fun rest net => Within accounts net ∧ ∀ e ∈ rest, accounts e.account)
    ⟨hnet, ht⟩ ?_).mono fun _ h => h.1
  rintro e rest net ⟨hnet, hrest⟩
  refine (subtractEntry_within hoverflow hnet (hrest e List.mem_cons_self)).mono fun net' hnet' => ?_
  exact ⟨hnet', fun e' he' => hrest e' (List.mem_cons_of_mem e he')⟩

theorem reverseLeg_within {legs : Legs} {p : AccountKey × Int}
    (hlegs : ∀ e ∈ legs.entries, accounts e.account) (hp : accounts p.1) :
    Ends (fun legs' : Legs => ∀ e ∈ legs'.entries, accounts e.account) E (reverseLeg l legs p) := by
  have hadd : ∀ a : Int, ∀ e ∈ legs.entries ++ [⟨p.1, a⟩], accounts e.account := by
    intro a e he
    rcases mem_concat.1 he with he | rfl
    · exact hlegs e he
    · exact hp
  have hdebit : ∀ user, Ends (fun legs' : Legs => ∀ e ∈ legs'.entries, accounts e.account) E
      (debitUser l legs p.1 user p.2) := by
    intro user
    unfold debitUser
    refine (ends_okOr hoverflow).bind fun debit _ => ends_pure fun e he => ?_
    dsimp only at he
    split_ifs at he
    · exact hadd _ e he
    · exact hlegs e he
  unfold reverseLeg
  by_cases hzero : p.2 = 0
  · rwa [if_pos hzero]
  · rw [if_neg hzero]
    split
    · split_ifs
      · exact hdebit _
      · exact hadd p.2
    · exact hadd p.2

/-- A reversal posts to the house and to accounts the market's transactions posted to. -/
theorem reversal_within (hconflict : ∀ why, E (.proposalConflict why)) {m : MarketId}
    (hhouse : accounts (cash .house))
    (htxns : ∀ t ∈ marketLedgerTxns l m, ∀ e ∈ t.entries, accounts e.account) :
    Ends (fun legs : Legs => ∀ e ∈ legs.entries, accounts e.account) E (reversal l m) := by
  unfold reversal
  have hnet : Ends (Within accounts) E ((marketLedgerTxns l m).foldlM subtractTxn []) := by
    refine (ends_foldlM (P := fun rest net => Within accounts net ∧
      ∀ t ∈ rest, ∀ e ∈ t.entries, accounts e.account) ⟨by simp [Within], htxns⟩ ?_).mono
        fun _ h => h.1
    rintro t rest net ⟨hnet, hrest⟩
    refine (subtractTxn_within hoverflow hconflict hnet (hrest t List.mem_cons_self)).mono ?_
    exact fun net' hnet' => ⟨hnet', fun t' ht' => hrest t' (List.mem_cons_of_mem t ht')⟩
  refine hnet.bind fun net hnet => ?_
  have hlegs : Ends (fun legs : Legs => ∀ e ∈ legs.entries, accounts e.account) E
      ((net.filter fun p => p.1 ≠ cash .house).foldlM (reverseLeg l) ⟨[], []⟩) := by
    refine (ends_foldlM (P := fun rest (legs : Legs) =>
      (∀ e ∈ legs.entries, accounts e.account) ∧ Within accounts rest)
      ⟨by simp, fun p hp => hnet p (List.mem_of_mem_filter hp)⟩ ?_).mono fun _ h => h.1
    rintro p rest legs ⟨hlegs, hrest⟩
    refine (reverseLeg_within hoverflow hlegs (hrest p List.mem_cons_self)).mono ?_
    exact fun legs' hlegs' => ⟨hlegs', fun q hq => hrest q (List.mem_cons_of_mem p hq)⟩
  refine hlegs.bind fun legs hlegs => ?_
  have htotal : Ends (fun _ => True) E (shortfallTotal legs.shortfalls) := by
    refine ends_foldlM (P := fun _ _ => True) trivial fun p rest total _ => ?_
    exact (ends_okOr hoverflow).mono fun _ _ => trivial
  refine htotal.bind fun total _ => ends_pure fun e he => ?_
  rw [List.mem_append, List.mem_append] at he
  rcases he with (he | he) | he
  · exact hlegs e he
  all_goals
    split_ifs at he
    · rwa [List.mem_singleton.1 he]
    · exact absurd he List.not_mem_nil

end Accounts

end Opinions.Ops
