import Opinions.Domain.Posting
import Opinions.Model.Uuid

/-! The stored ledger (`adapters/src/pg/trade_tx.rs`). An account row is unique per
owner and currency, so that pair is its identity here. `ledgerApply` runs the
domain's checks against the stored balances and records the transaction under
its idempotency key; no key is recorded twice. -/

namespace Opinions.Store

open Lib.Checked Lib.Result Lib.Rows Domain.Ledger Model

inductive OwnerRef
  | user (user : UserId)
  | marketEscrow (market : MarketId)
  | marketPool (market : MarketId)
  | fees
  | house
  | external
  | withheld
  | depositSuspense
  | bonusReserve
  deriving DecidableEq

def OwnerRef.ownerType : OwnerRef → OwnerType
  | .user _ => .user
  | .marketEscrow _ => .escrow
  | .marketPool _ => .pool
  | .fees => .fees
  | .house => .house
  | .external => .external
  | .withheld => .withheld
  | .depositSuspense => .depositSuspense
  | .bonusReserve => .bonusReserve

structure AccountKey where
  owner : OwnerRef
  currency : Currency
  deriving DecidableEq

def cash (owner : OwnerRef) : AccountKey := { owner := owner, currency := .usdc }

inductive StoreError
  | notFound (what : String)
  | duplicateKey
  | ledger (e : LedgerError AccountKey)
  | invariant (what : String)
  | conflict (what : String)
  | integrity (what : String)
  | backend (what : String)
  deriving DecidableEq

structure LedgerTxn where
  key : String
  kind : TxnKind
  entries : List (Entry AccountKey)
  deriving DecidableEq

/-- Every account row is of the owner type and currency its key names. -/
def Keyed (b : Balances AccountKey) : Prop :=
  ∀ r ∈ b.rows, r.owner = r.id.owner.ownerType ∧ r.currency = r.id.currency

variable {b : Balances AccountKey}

theorem Keyed.openAccount (h : Keyed b) (k : AccountKey) :
    Keyed (b.openAccount k k.owner.ownerType k.currency).2 := by
  rcases b.openAccount_cases k k.owner.ownerType k.currency with heq | ⟨hrows, -⟩
  · rwa [heq]
  · intro r hr
    rw [hrows, mem_concat] at hr
    rcases hr with hr | rfl
    · exact h r hr
    · exact ⟨rfl, rfl⟩

theorem Keyed.write (h : Keyed b) (posts : List (AccountKey × Int)) : Keyed (b.write posts) := by
  intro r hr
  obtain ⟨r₀, hr₀, hid, howner, hcurrency⟩ := Balances.mem_writeRows hr
  rw [hid, howner, hcurrency]
  exact h r₀ hr₀

theorem Keyed.moved (h : Keyed b) (δ : AccountKey → Int) : Keyed (b.moved δ) := by
  intro r hr
  obtain ⟨r₀, hr₀, rfl⟩ := List.mem_map.1 hr
  exact h r₀ hr₀

/-- The account balances and the transactions booked so far. -/
structure Ledger where
  balances : Balances AccountKey
  txns : List LedgerTxn
  keyed : Keyed balances

namespace Ledger

def empty : Ledger :=
  { balances := Balances.empty AccountKey, txns := [], keyed := by simp [Keyed, Balances.empty] }

/-- The identity order of the scratch maps; no outcome depends on it. -/
def storedOrder : Traversal AccountKey where
  checked := id
  sums := id
  posted := id
  checked_perm := fun _ => List.Perm.refl _
  sums_perm := fun _ => List.Perm.refl _
  posted_perm := fun _ => List.Perm.refl _

def account (l : Ledger) (k : AccountKey) : Ledger :=
  { l with balances := (l.balances.openAccount k k.owner.ownerType k.currency).2
           keyed := l.keyed.openAccount k }

def txnByKey (l : Ledger) (key : String) : Option LedgerTxn := find LedgerTxn.key key l.txns

/-- The balance of an account, zero before it exists. -/
def balanceOf (l : Ledger) (k : AccountKey) : Int := (l.balances.balance k).getD 0

def Opened (l : Ledger) (k : AccountKey) : Prop := k ∈ l.balances.rows.map Account.id

/-- Every balance is a signed 64-bit integer. -/
def InRange (l : Ledger) : Prop := ∀ k, FitsI64 (l.balanceOf k)

def entryVec (entries : List (Entry AccountKey)) : Option (EntryVec AccountKey) :=
  if h : (∀ e ∈ entries, FitsI64 e.amount) ∧ entries.length < 576460752303423488 then
    some { list := entries, fits := h.1, length_lt := h.2 }
  else none

def ledgerApply (l : Ledger) (kind : TxnKind) (key : String) (entries : List (Entry AccountKey)) :
    Except StoreError Ledger := do
  let vec ← okOr (entryVec entries) (.ledger .overflow)
  let txn ← (Transaction.new kind vec).mapError StoreError.ledger
  let posts ← (l.balances.posts storedOrder txn).mapError StoreError.ledger
  refuse (key ∈ l.txns.map LedgerTxn.key) .duplicateKey
  pure { balances := l.balances.write posts
         txns := l.txns ++ [{ key := key, kind := kind, entries := entries }]
         keyed := l.keyed.write posts }

/-- Two entries under a new key, posted without a balance check (`two_leg`). -/
def twoLeg (l : Ledger) (kind : TxnKind) (key : String) (a b : Entry AccountKey) :
    Except StoreError Ledger := do
  refuse (key ∈ l.txns.map LedgerTxn.key) .duplicateKey
  let opened := (l.account a.account).account b.account
  pure { balances := opened.balances.moved (delta [a, b])
         txns := l.txns ++ [{ key := key, kind := kind, entries := [a, b] }]
         keyed := opened.keyed.moved _ }

variable {l : Ledger}

@[simp] theorem balanceOf_account (l : Ledger) (k k' : AccountKey) :
    (l.account k).balanceOf k' = l.balanceOf k' := by
  unfold account balanceOf Balances.balance Balances.account Balances.openAccount
  split_ifs
  · rfl
  · rfl
  · rfl
  · dsimp only
    rw [find_append]
    cases h : find Account.id k' l.balances.rows with
    | some => rfl
    | none =>
      simp only [Option.none_or, find_cons, find_nil]
      split_ifs <;> rfl

theorem Opened.account {k : AccountKey} (h : l.Opened k) (k' : AccountKey) :
    (l.account k').Opened k := by
  unfold Opened Ledger.account
  dsimp only
  rcases l.balances.openAccount_cases k' k'.owner.ownerType k'.currency with heq | ⟨hrows, -⟩
  · rwa [heq]
  · rw [hrows, List.map_append]
    exact List.mem_append_left _ h

/-- A sole owner's account can only be missing under the same key, so creating an
account always succeeds. -/
theorem opened_account (l : Ledger) (k : AccountKey) : (l.account k).Opened k := by
  have hsole : ∀ r ∈ l.balances.rows, Balances.IsSole k.owner.ownerType →
      r.owner = k.owner.ownerType → r.currency = k.currency → l.Opened k := by
    intro r hr hs howner hcurrency
    obtain ⟨ho, hc⟩ := l.keyed r hr
    have hid : r.id = k := by
      rcases hk : k with ⟨owner, currency⟩
      rcases hrid : r.id with ⟨owner', currency'⟩
      rw [hk] at hs howner hcurrency
      rw [hrid] at ho hc
      dsimp only at hs howner hcurrency ho hc
      rw [← hc, hcurrency]
      rw [howner] at ho
      cases owner <;> cases owner' <;>
        simp_all [OwnerRef.ownerType, Balances.IsSole, isMoneySingleton]
    exact hid ▸ List.mem_map_of_mem hr
  unfold Opened account Balances.openAccount
  split_ifs with hopen hext hdup
  · exact hopen
  · obtain ⟨howner, r, hr, hro, hrc⟩ := hext
    exact hsole r hr (Or.inl howner) (hro.trans howner.symm) hrc
  · obtain ⟨hmoney, r, hr, hro, hrc⟩ := hdup
    exact hsole r hr (Or.inr hmoney) hro hrc
  · simp

@[simp] theorem txns_account (l : Ledger) (k : AccountKey) : (l.account k).txns = l.txns := rfl

structure Applied (l : Ledger) (kind : TxnKind) (key : String) (entries : List (Entry AccountKey))
    (l' : Ledger) : Prop where
  admits : l.balances.Admits entries
  balances : l'.balances = l.balances.moved (delta entries)
  fresh : key ∉ l.txns.map LedgerTxn.key
  txns : l'.txns = l.txns ++ [{ key := key, kind := kind, entries := entries }]
  nonzero : ∀ e ∈ entries, e.amount ≠ 0

variable {l' : Ledger} {kind : TxnKind} {key : String} {entries : List (Entry AccountKey)}

theorem ledgerApply_spec (h : l.ledgerApply kind key entries = .ok l') :
    Applied l kind key entries l' := by
  simp only [ledgerApply, ok_iff] at h
  obtain ⟨vec, hvec, txn, htxn, posts, hposts, _, hfresh, rfl⟩ := h
  have hlist : txn.entries.list = entries := by
    unfold entryVec at hvec
    split_ifs at hvec
    rw [entries_of_new htxn, ← Option.some.inj hvec]
  obtain ⟨hadm, hwrite⟩ := Balances.admits_of_posts hposts
  rw [hlist] at hadm hwrite
  exact ⟨hadm, hwrite, hfresh, rfl, hlist ▸ txn.nonzero⟩

theorem sum_amount_of_ledgerApply (h : l.ledgerApply kind key entries = .ok l') :
    (entries.map Entry.amount).sum = 0 := by
  simp only [ledgerApply, ok_iff] at h
  obtain ⟨vec, hvec, txn, htxn, -⟩ := h
  unfold entryVec at hvec
  split_ifs at hvec
  have hlist : txn.entries.list = entries := by
    rw [entries_of_new htxn, ← Option.some.inj hvec]
  exact hlist ▸ txn.balanced

/-- Entries on open accounts change every balance by their delta. -/
theorem balanceOf_moved (hb : l'.balances = l.balances.moved (delta entries))
    (hopen : ∀ e ∈ entries, l.Opened e.account) (k : AccountKey) :
    l'.balanceOf k = l.balanceOf k + delta entries k := by
  unfold Ledger.balanceOf Balances.balance
  rw [hb, Balances.account_moved]
  cases hf : l.balances.account k with
  | some r =>
    have hk : r.id = k := key_of_find hf
    subst hk
    rfl
  | none =>
    have hk : k ∉ entries.map Entry.account := by
      intro hmem
      obtain ⟨e, he, rfl⟩ := List.mem_map.1 hmem
      exact Option.isSome_iff_ne_none.1 (find_isSome.2 (hopen e he)) hf
    rw [delta_eq_zero hk]
    rfl

theorem Applied.balanceOf (h : Applied l kind key entries l') (k : AccountKey) :
    l'.balanceOf k = l.balanceOf k + delta entries k :=
  balanceOf_moved h.balances h.admits.opened k

theorem Applied.opened (h : Applied l kind key entries l') {k : AccountKey} (hk : l.Opened k) :
    l'.Opened k := by
  unfold Opened
  rwa [h.balances, Balances.moved, List.map_map]

theorem InRange.account (h : l.InRange) (k : AccountKey) : (l.account k).InRange :=
  fun k' => by rw [balanceOf_account]; exact h k'

theorem Applied.inRange (h : Applied l kind key entries l') (hl : l.InRange) : l'.InRange := by
  intro k
  by_cases hk : k ∈ entries.map Entry.account
  · obtain ⟨e, he, rfl⟩ := List.mem_map.1 hk
    obtain ⟨r, hr, hre⟩ := List.mem_map.1 (h.admits.opened e he)
    have hbal : l.balanceOf r.id = r.balance := by
      unfold Ledger.balanceOf Balances.balance Balances.account
      rw [find_of_mem l.balances.nodup hr]
      rfl
    rw [h.balanceOf, ← hre, hbal]
    exact h.admits.fits r hr (hre ▸ hk)
  · rw [h.balanceOf, delta_eq_zero hk, add_zero]
    exact hl k

structure TwoLegged (l : Ledger) (kind : TxnKind) (key : String) (a b : Entry AccountKey)
    (l' : Ledger) : Prop where
  balanceOf : ∀ k, l'.balanceOf k = l.balanceOf k + delta [a, b] k
  fresh : key ∉ l.txns.map LedgerTxn.key
  txns : l'.txns = l.txns ++ [{ key := key, kind := kind, entries := [a, b] }]

theorem twoLeg_spec {a b : Entry AccountKey} (h : l.twoLeg kind key a b = .ok l') :
    TwoLegged l kind key a b l' := by
  simp only [twoLeg, ok_iff] at h
  obtain ⟨_, hfresh, rfl⟩ := h
  refine ⟨fun k => ?_, hfresh, rfl⟩
  have hopen : ∀ e ∈ [a, b], ((l.account a.account).account b.account).Opened e.account := by
    intro e he
    rcases List.mem_pair.1 he with rfl | rfl
    · exact (opened_account l _).account _
    · exact opened_account _ _
  rw [balanceOf_moved (l := (l.account a.account).account b.account) rfl hopen,
    balanceOf_account, balanceOf_account]

end Ledger

end Opinions.Store
