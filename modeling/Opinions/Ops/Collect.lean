import Opinions.Lib.Flight
import Opinions.Ops.Tables

/-! Transactions that bring cash in and collect what is owed out of it (`auto_collect` in
`application/src/ops/receivable_collection.rs`). All of them take the locks of their users
first. Then each makes postings of its own and collects, statement by statement: the open
receivables, the cash, the collection. What it writes is its own until it commits. -/

namespace Opinions.Ops

open Lib Lib.Checked Lib.Result Domain.Ledger Model Store Trade Credit

/-- The locks of the manual operations and of collection: advisory locks on keys and users,
and locked rows. -/
inductive Lock
  | key (key : String)
  | user (user : UserId)
  | account (account : AccountKey)
  | market (market : MarketId)
  | writeOff (key : String)
  | remedial (key : String)
  deriving DecidableEq

structure Posting where
  kind : TxnKind
  key : String
  entries : List (Entry AccountKey)

namespace Posting

def apply (l : Ledger) (p : Posting) : Except StoreError Ledger :=
  (p.entries.foldl (fun l e => l.account e.account) l).ledgerApply p.kind p.key p.entries

def locks (p : Posting) : List Lock := p.entries.map fun e => .account e.account

end Posting

/-- The ledger as a transaction sees it: what is committed, and its own postings. -/
def ledgerView (l : Ledger) (postings : List Posting) : Except StoreError Ledger :=
  postings.foldlM Posting.apply l

/-- A collection that has read the debts of its user, and their cash once `collect` is set. -/
structure Collection where
  user : UserId
  key : String
  actor : String
  rows : List ReceivableOutstanding
  owed : Int
  collect : Option Int
  rowsOpen : ∀ row ∈ rows, 0 < row.outstandingMicro

/-- A `Collected` movement before it is committed. -/
structure Taking where
  receivable : Uuid
  amountMicro : Int
  actor : String
  cashTxn : String
  idempotencyKey : String
  positive : 0 < amountMicro

def Taking.movement (began : Instant) (t : Taking) : ReceivableMovement :=
  { receivable := t.receivable, kind := .collected, amountMicro := t.amountMicro, actor := t.actor
    cashTxn := some t.cashTxn, idempotencyKey := t.idempotencyKey, createdAt := began
    positive := t.positive }

/-- A cash-bringing transaction in flight. -/
structure Ingress where
  began : Instant
  postings : List Posting
  takings : List Taking
  collecting : Option Collection

def totalOwed (rows : List ReceivableOutstanding) : Except AppError Int :=
  rows.foldlM (fun sum row => okOr (tryI64 (sum + row.outstandingMicro)) .overflow) 0

/-- Oldest first, until nothing remains. -/
def spread : Int → List ReceivableOutstanding → List (ReceivableOutstanding × Int)
  | _, [] => []
  | remaining, row :: rows =>
    if remaining = 0 then []
    else
      let take := min remaining row.outstandingMicro
      (row, take) :: spread (remaining - take) rows

def collectKey (key : String) : String := "recv-collect:" ++ key

namespace Collection

def posting (k : Collection) (collect : Int) : Posting :=
  { kind := .reversal, key := collectKey k.key
    entries := [⟨cash (.user k.user), -collect⟩, ⟨cash .house, collect⟩] }

/-- One share of the collection; the table takes no amount that is not positive. -/
def taking (k : Collection) (share : ReceivableOutstanding × Int) : Except AppError Taking :=
  if h : 0 < share.2 then
    .ok { receivable := share.1.receivable.id, amountMicro := share.2, actor := k.actor
          cashTxn := collectKey k.key
          idempotencyKey := collectKey k.key ++ ":" ++ uuidText share.1.receivable.id
          positive := h }
  else .error (.store (.backend "receivable_movements_amount_micro_check"))

end Collection

abbrev Halt := Blocked OpsError

def refusedApp (e : AppError) : Halt := .refused (.app e)

def refusedStore (e : StoreError) : Halt := refusedApp (.store e)

namespace Ingress

variable {σ : Type}

def movements (c : Ingress) (db : OpsDb) : List ReceivableMovement :=
  db.movements ++ c.takings.map (Taking.movement c.began)

/-- A posting: its accounts are locked, then it is checked against what is visible. -/
def post (i : Nat) (db : OpsDb) (p : Posting) (c : Ingress) (f : Flight σ Lock) :
    Except Halt (Flight σ Lock × Ingress) := do
  let f ← p.locks.foldlM (fun f k => f.hold i k) f
  let _ ← (ledgerView db.ledger (c.postings ++ [p])).mapError refusedStore
  pure (f, { c with postings := c.postings ++ [p] })

/-- Read what the user owes; every caller holds the user's lock here. -/
def readOpen (i : Nat) (db : OpsDb) (user : UserId) (key actor : String) (c : Ingress)
    (f : Flight σ Lock) : Except Halt Ingress := do
  refuse (¬f.Holds i (.user user) ∨ c.collecting.isSome) .notReady
  let rows := openReceivablesForUser db.receivables (c.movements db) user
  let owed ← (totalOwed rows).mapError refusedApp
  pure { c with
    collecting :=
      if owed = 0 then none
      else some
        { user := user, key := key, actor := actor, rows := rows, owed := owed, collect := none
          rowsOpen := fun row hrow => by simpa using (List.mem_filter.1 hrow).2 } }

def readCash (db : OpsDb) (c : Ingress) : Except Halt Ingress := do
  let k ← okOr c.collecting .notReady
  refuse (k.collect.isSome) .notReady
  let l ← (ledgerView db.ledger c.postings).mapError refusedStore
  let collect := min k.owed (max (l.balanceOf (cash (.user k.user))) 0)
  pure { c with
    collecting := if collect = 0 then none else some { k with collect := some collect } }

/-- Take the cash and spread it over the receivables as they were read. -/
def takeCash (i : Nat) (db : OpsDb) (c : Ingress) (f : Flight σ Lock) :
    Except Halt (Flight σ Lock × Ingress) := do
  let k ← okOr c.collecting .notReady
  let collect ← okOr k.collect .notReady
  let (f, c) ← c.post i db (k.posting collect) f
  let takings ← ((spread collect k.rows).mapM k.taking).mapError refusedApp
  pure (f, { c with takings := c.takings ++ takings, collecting := none })

def commit (db : OpsDb) (c : Ingress) : Except Halt OpsDb := do
  refuse (c.collecting.isSome) .notReady
  let ledger ← (ledgerView db.ledger c.postings).mapError refusedStore
  ((c.takings.map (Taking.movement c.began)).foldlM OpsDb.insertReceivableMovement
    { db with ledger := ledger }).mapError refusedStore

variable {i : Nat} {db db' : OpsDb} {c c' : Ingress} {f f' : Flight σ Lock}

theorem post_spec {p : Posting} (h : c.post i db p f = .ok (f', c')) :
    Flight.Grown f f' ∧ (∃ l, ledgerView db.ledger (c.postings ++ [p]) = .ok l) ∧
      c' = { c with postings := c.postings ++ [p] } := by
  simp only [post, ok_iff] at h
  obtain ⟨f₁, hf, l, hl, rfl, rfl⟩ := h
  exact ⟨Flight.holdAll_grown hf, ⟨l, hl⟩, rfl⟩

theorem readOpen_spec {user : UserId} {key actor : String}
    (h : c.readOpen i db user key actor f = .ok c') :
    f.Holds i (.user user) ∧ c.collecting = none ∧ c'.takings = c.takings ∧
      ∀ k, c'.collecting = some k → k.user = user ∧
        k.rows = openReceivablesForUser db.receivables (c.movements db) user := by
  simp only [readOpen, ok_iff] at h
  obtain ⟨_, hready, owed, -, rfl⟩ := h
  obtain ⟨hlock, hidle⟩ := not_or.1 hready
  refine ⟨not_not.1 hlock, by simpa using hidle, rfl, fun k hk => ?_⟩
  dsimp only at hk
  split_ifs at hk
  cases hk
  exact ⟨rfl, rfl⟩

theorem readCash_spec (h : c.readCash db = .ok c') :
    c'.takings = c.takings ∧ ∀ k', c'.collecting = some k' →
      ∃ k, c.collecting = some k ∧ k'.user = k.user ∧ k'.rows = k.rows := by
  simp only [readCash, ok_iff] at h
  obtain ⟨k, hk, _, -, l, -, rfl⟩ := h
  refine ⟨rfl, fun k' hk' => ⟨k, hk, ?_⟩⟩
  dsimp only at hk'
  split_ifs at hk'
  cases hk'
  exact ⟨rfl, rfl⟩

theorem takeCash_spec (h : c.takeCash i db f = .ok (f', c')) :
    Flight.Grown f f' ∧ c'.collecting = none ∧ ∃ k collect takings,
      c.collecting = some k ∧ k.collect = some collect ∧
      (spread collect k.rows).mapM k.taking = .ok takings ∧
      c'.takings = c.takings ++ takings := by
  simp only [takeCash, ok_iff] at h
  obtain ⟨k, hk, collect, hcollect, ⟨f₁, c₁⟩, hpost, takings, htakings, rfl, rfl⟩ := h
  obtain ⟨hgrown, -, rfl⟩ := post_spec hpost
  exact ⟨hgrown, rfl, k, collect, takings, hk, hcollect, htakings, rfl⟩

theorem commit_spec (h : c.commit db = .ok db') :
    c.collecting = none ∧ db'.movements = db.movements ++ c.takings.map (Taking.movement c.began) ∧
      db'.receivables = db.receivables ∧ db'.remedials = db.remedials := by
  simp only [commit, ok_iff] at h
  obtain ⟨_, hidle, ledger, -, hinserted⟩ := h
  obtain ⟨hmovements, hreceivables, hremedials⟩ := OpsDb.insertMovements_spec hinserted
  exact ⟨by simpa using hidle, hmovements, hreceivables, hremedials⟩

end Ingress

end Opinions.Ops
