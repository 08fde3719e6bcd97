import Opinions.Lib.Tally

/-! The double-entry ledger (`domain/src/ledger.rs`). A transaction is a vector of
signed entries that sums to zero; applying it aggregates them by account, checks every
currency and every post-balance, and only then writes. The account identifier is a
parameter. A hash map promises no order, so every traversal of a scratch map is an
arbitrary permutation of its entries. -/

namespace Opinions.Domain.Ledger

open Lib.Checked Lib.Result Lib.Rows Lib.Tally

inductive OwnerType
  | user
  | pool
  | fees
  | house
  | escrow
  | external
  | withheld
  | depositSuspense
  | bonusReserve
  deriving DecidableEq

inductive Currency
  | usdc
  | usdcCredit
  deriving DecidableEq

inductive TxnKind
  | deposit
  | trade
  | payout
  | withdrawal
  | seed
  | reversal
  | creditGrant
  | creditConvert
  deriving DecidableEq

structure Entry (α : Type) where
  account : α
  amount : Int
  deriving DecidableEq

inductive LedgerError (α : Type)
  | unbalanced (sumMicro : Int)
  | unbalancedCurrency (currency : Currency) (sumMicro : Int)
  | tooFewEntries
  | zeroEntry
  | insufficientFunds (account : α)
  | unknownAccount
  | duplicateExternal (currency : Currency)
  | duplicateSingleton (owner : OwnerType) (currency : Currency)
  | overflow
  deriving DecidableEq

/-- A vector of entries: the amounts are signed 64-bit integers, and a vector of
entries of more than 16 bytes each has fewer than `2 ^ 59` of them. -/
structure EntryVec (α : Type) where
  list : List (Entry α)
  fits : ∀ e ∈ list, FitsI64 e.amount
  length_lt : list.length < 576460752303423488

/-- At least two entries, none zero, summing to zero. -/
structure Transaction (α : Type) where
  kind : TxnKind
  entries : EntryVec α
  two_le : 2 ≤ entries.list.length
  nonzero : ∀ e ∈ entries.list, e.amount ≠ 0
  balanced : (entries.list.map Entry.amount).sum = 0

def Transaction.new {α : Type} (kind : TxnKind) (entries : EntryVec α) :
    Except (LedgerError α) (Transaction α) :=
  if htwo : entries.list.length < 2 then .error .tooFewEntries
  else if hzero : ∃ e ∈ entries.list, e.amount = 0 then .error .zeroEntry
  else if hsum : (entries.list.map Entry.amount).sum ≠ 0 then
    .error (.unbalanced (entries.list.map Entry.amount).sum)
  else
    .ok { kind := kind, entries := entries, two_le := by omega,
          nonzero := fun e he h0 => hzero ⟨e, he, h0⟩, balanced := by omega }

/-- One slot of the balance map. -/
structure Account (α : Type) where
  id : α
  owner : OwnerType
  currency : Currency
  balance : Int
  deriving DecidableEq

structure Balances (α : Type) where
  rows : List (Account α)
  nodup : (rows.map Account.id).Nodup

def isMoneySingleton (owner : OwnerType) : Bool :=
  owner = .withheld ∨ owner = .depositSuspense ∨ owner = .bonusReserve

/-- The orders in which one `apply` happens to walk its scratch maps. -/
structure Traversal (α : Type) where
  checked : List (α × Int) → List (α × Int)
  sums : List (Currency × Int) → List (Currency × Int)
  posted : List (α × Int) → List (α × Int)
  checked_perm : ∀ l, (checked l).Perm l
  sums_perm : ∀ l, (sums l).Perm l
  posted_perm : ∀ l, (posted l).Perm l

namespace Balances

variable {α : Type} [DecidableEq α]

def empty (α : Type) : Balances α := { rows := [], nodup := List.nodup_nil }

def account (b : Balances α) (a : α) : Option (Account α) := find Account.id a b.rows

def balance (b : Balances α) (a : α) : Option Int := (b.account a).map Account.balance

/-- Open an account at zero; an open account stays as it is. The result keeps the
balances beside the verdict because the source mutates them in place. -/
def openAccount (b : Balances α) (account : α) (owner : OwnerType) (currency : Currency) :
    Except (LedgerError α) Unit × Balances α :=
  if h : account ∈ b.rows.map Account.id then (.ok (), b)
  else if owner = .external ∧ ∃ r ∈ b.rows, r.owner = .external ∧ r.currency = currency then
    (.error (.duplicateExternal currency), b)
  else if isMoneySingleton owner ∧ ∃ r ∈ b.rows, r.owner = owner ∧ r.currency = currency then
    (.error (.duplicateSingleton owner currency), b)
  else
    (.ok (), { rows := b.rows ++ [⟨account, owner, currency, 0⟩]
               nodup := by
                rw [List.map_append, List.map_singleton]
                simpa using b.nodup.concat h })

def post (b : Balances α) (p : α × Int) : Except (LedgerError α) (α × Int) := do
  let r ← okOr (b.account p.1) .unknownAccount
  let wide ← okOr (checkedI128 (r.balance + p.2)) .overflow
  let post ← okOr (tryI64 wide) .overflow
  refuse (post < 0 ∧ r.owner ≠ .external) (.insufficientFunds p.1)
  pure (p.1, post)

def currencyOf (b : Balances α) (p : α × Int) : Except (LedgerError α) Currency :=
  (okOr (b.account p.1) .unknownAccount).map Account.currency

/-- The reading phases of `apply`: aggregate, check the currencies, compute the
post-balances. -/
def posts (b : Balances α) (t : Traversal α) (txn : Transaction α) :
    Except (LedgerError α) (List (α × Int)) := do
  let deltas ← tally (fun e => .ok e.account) Entry.amount .overflow txn.entries.list
  let perCurrency ← tally b.currencyOf Prod.snd .overflow (t.checked deltas)
  (t.sums perCurrency).forM fun p => refuse (p.2 ≠ 0) (.unbalancedCurrency p.1 p.2)
  (t.posted deltas).mapM b.post

def writeRows (rows : List (Account α)) (posts : List (α × Int)) : List (Account α) :=
  posts.foldl (fun rows p => update Account.id p.1 (fun r => { r with balance := p.2 }) rows) rows

theorem map_id_writeRows (rows : List (Account α)) (posts : List (α × Int)) :
    (writeRows rows posts).map Account.id = rows.map Account.id := by
  induction posts generalizing rows with
  | nil => rfl
  | cons p posts ih =>
    rw [writeRows, List.foldl_cons, ← writeRows, ih]
    exact map_key_update fun _ => rfl

theorem mem_writeRows {rows : List (Account α)} {posts : List (α × Int)} {r : Account α}
    (h : r ∈ writeRows rows posts) :
    ∃ r₀ ∈ rows, r.id = r₀.id ∧ r.owner = r₀.owner ∧ r.currency = r₀.currency := by
  induction posts generalizing rows with
  | nil => exact ⟨r, h, rfl, rfl, rfl⟩
  | cons p posts ih =>
    rw [writeRows, List.foldl_cons, ← writeRows] at h
    obtain ⟨r₁, hr₁, hid, howner, hcurrency⟩ := ih h
    obtain ⟨r₀, hr₀, rfl⟩ := mem_update.1 hr₁
    refine ⟨r₀, hr₀, ?_⟩
    split_ifs at hid howner hcurrency <;> exact ⟨hid, howner, hcurrency⟩

def write (b : Balances α) (posts : List (α × Int)) : Balances α :=
  { rows := writeRows b.rows posts, nodup := by rw [map_id_writeRows]; exact b.nodup }

/-- Apply a transaction: nothing is written before every check has passed. -/
def apply (b : Balances α) (t : Traversal α) (txn : Transaction α) :
    Except (LedgerError α) Unit × Balances α :=
  match b.posts t txn with
  | .error e => (.error e, b)
  | .ok posts => (.ok (), b.write posts)

end Balances

end Opinions.Domain.Ledger
