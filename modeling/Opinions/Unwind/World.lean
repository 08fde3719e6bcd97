import Opinions.Ops.Netting
import Opinions.Ops.Tables
import Opinions.Payout.Machine

/-! The dual-controlled unwind of a market (`application/src/ops/unwind_market.rs`). A
voided market, or one that is flagged and not paid, is unwound by two principals. The
confirmation negates every transaction of the market in one reversal, opens a receivable
for what a user could not pay and zeroes the positions with compensating facts. -/

namespace Opinions.Unwind

open Lib.Result Lib.Rows Domain.Ledger Domain.Market Model Store Trade Money Credit Ops Payout

inductive UnwindStage
  | proposed
  | confirmed
  | applied
  | rejected
  | expired
  deriving DecidableEq

structure MarketUnwind where
  market : MarketId
  unwindKey : String
  stage : UnwindStage
  proposerTokenId : String
  confirmerTokenId : Option String
  reason : String
  confirmNotBefore : Instant
  reversalTxn : Option String
  deriving DecidableEq

/-- A transaction of the market and the reversal that took it back. -/
structure ReversedTxn where
  reversed : String
  reversalTxn : Option String
  market : MarketId

structure World where
  book : Book
  unwinds : List MarketUnwind
  receivables : List Receivable
  movements : List ReceivableMovement
  lineage : List ReversedTxn

def World.empty : World :=
  { book := Book.empty, unwinds := [], receivables := [], movements := [], lineage := [] }

structure UnwindCmd where
  market : MarketId
  reason : String
  idempotencyKey : String

structure UnwindPolicy extends OpsPolicy where
  receivableOutstandingCapMicro : Int

structure UnwindFacts where
  now : Instant
  /-- The start of the transaction, which dates its rows. -/
  began : Instant
  fresh : UserId → Uuid
  /-- Reversing the fee allocations of the market. -/
  allocations : Except AppError Unit

def unwindKey (m : MarketId) (clientKey : String) : String :=
  "unwind:" ++ uuidText m.uuid ++ ":" ++ clientKey

def conflict (why : String) : OpsError := .app (.proposalConflict why)

def storeError (e : StoreError) : OpsError := .app (.store e)

namespace World

def ledger (w : World) : Ledger := w.book.store.ledger

def Unwound (w : World) (m : MarketId) : Prop :=
  ∃ u ∈ find MarketUnwind.market m w.unwinds, u.stage = .applied

instance (w : World) (m : MarketId) : Decidable (w.Unwound m) :=
  inferInstanceAs (Decidable (∃ u ∈ find MarketUnwind.market m w.unwinds, _))

def insertUnwind (w : World) (u : MarketUnwind) : Except OpsError World := do
  refuse (u.market ∈ w.unwinds.map MarketUnwind.market ∨
    u.unwindKey ∈ w.unwinds.map MarketUnwind.unwindKey) (storeError (.conflict "market unwind"))
  pure { w with unwinds := w.unwinds ++ [u] }

def saveUnwind (w : World) (u : MarketUnwind) : World :=
  { w with unwinds := update MarketUnwind.market u.market (fun row =>
      { row with stage := u.stage, confirmerTokenId := u.confirmerTokenId
                 reversalTxn := u.reversalTxn }) w.unwinds }

/-- What users still owe the house, over all markets. -/
def openReceivablesTotal (w : World) : Except StoreError Int :=
  MoneyDb.bigint (((w.receivables.map (outstanding w.movements)).filter fun r =>
    0 < r.outstandingMicro).map ReceivableOutstanding.outstandingMicro).sum

end World

def checkUnwindable (state : MarketState) (curatorFlagged : Bool) : Except OpsError Unit :=
  match state, curatorFlagged with
  | .voided, _ => .ok ()
  | .resolving, true => .ok ()
  | _, _ => .error (.app .illegalTransition)

/-- A market under review ends voided; a voided one is so already. -/
def tombstone (state : MarketState) : Except OpsError MarketState :=
  if state = .resolving then
    (transition state .voidByAdmin).mapError fun _ => .app .illegalTransition
  else .ok state

def recordReversal (m : MarketId) (reversalTxn : Option String) (lineage : List ReversedTxn)
    (t : LedgerTxn) : Except OpsError (List ReversedTxn) := do
  refuse (t.key ∈ lineage.map ReversedTxn.reversed) (storeError (.conflict "reversal lineage"))
  pure (lineage ++ [⟨t.key, reversalTxn, m⟩])

def openedKey (m : MarketId) (user : UserId) : String :=
  "unwind:" ++ uuidText m.uuid ++ ":recv:" ++ uuidText user.uuid

/-- One shortfall becomes a receivable and the movement that opens it. -/
def openReceivable (facts : UnwindFacts) (m : MarketId) (reversalTxn confirmer : String)
    (acc : List Receivable × List ReceivableMovement) (s : UserId × Int) :
    Except OpsError (List Receivable × List ReceivableMovement) :=
  if h : 0 < s.2 then do
    refuse (facts.fresh s.1 ∈ acc.1.map Receivable.id ∨
      (s.1, m) ∈ acc.1.map fun r => (r.user, r.market)) (storeError (.conflict "receivable"))
    refuse (openedKey m s.1 ∈ acc.2.map ReceivableMovement.idempotencyKey)
      (storeError (.conflict "receivable movement key"))
    pure (acc.1 ++ [{ id := facts.fresh s.1, market := m, user := s.1
                      originReversalTxn := reversalTxn, openedMicro := s.2
                      createdAt := facts.began, positive := h }],
      acc.2 ++ [{ receivable := facts.fresh s.1, kind := .opened, amountMicro := s.2
                  actor := confirmer, cashTxn := none, idempotencyKey := openedKey m s.1
                  createdAt := facts.began, positive := h }])
  else .error (storeError (.integrity "receivables_opened_micro_check"))

/-- Without a reversal there is nothing to owe. -/
def openReceivables (facts : UnwindFacts) (m : MarketId) (reversalTxn : Option String)
    (confirmer : String) (shortfalls : List (UserId × Int))
    (acc : List Receivable × List ReceivableMovement) :
    Except OpsError (List Receivable × List ReceivableMovement) :=
  match reversalTxn with
  | none => .ok acc
  | some txn => shortfalls.foldlM (openReceivable facts m txn confirmer) acc

/-- In order of the user and the outcome. -/
def positionsForMarket (s : Store) (m : MarketId) : List PositionRow :=
  (s.positions.filter fun p => p.outcome.market = m).insertionSort fun p q =>
    p.user.uuid.toNat < q.user.uuid.toNat ∨
      p.user = q.user ∧ sideIdx p.outcome.side ≤ sideIdx q.outcome.side

/-- The fact that compensates what a position realized. -/
def unwindRealization (p : PositionRow) (reversalTxn : Option String) (now : Instant) :
    Option RealizationFact :=
  if p.realizedPnl ≠ 0 then
    reversalTxn.map fun key =>
      { ledgerKey := key, user := p.user, outcome := p.outcome, realizedDelta := -p.realizedPnl
        payout := 0, createdAt := now }
  else none

/-- Once per transaction, user and outcome. -/
def insertRealization (facts : List RealizationFact) (fact : RealizationFact) :
    List RealizationFact :=
  if facts.any fun f => f.ledgerKey = fact.ledgerKey ∧ f.user = fact.user ∧
      f.outcome = fact.outcome then facts
  else facts ++ [fact]

def zeroed (p : PositionRow) : PositionRow := { p with shares := 0, cost := 0, realizedPnl := 0 }

def zeroPosition (reversalTxn : Option String) (now : Instant) (s : Store) (p : PositionRow) :
    Store :=
  { s with
    realizations := (unwindRealization p reversalTxn now).elim s.realizations
      (insertRealization s.realizations)
    positions := upsert Store.positionKey (zeroed p) s.positions }

def unwoundColumns (now : Instant) (c : MarketColumns) : MarketColumns :=
  { c with lpPnl := some 0, settledAt := some now, integrityDueAt := none, curatorFlaggedAt := none }

namespace World

def unwind (policy : UnwindPolicy) (facts : UnwindFacts) (row : MarketRow) (u : MarketUnwind)
    (confirmer : String) (w : World) : Except OpsError (MarketUnwind × World) := do
  let m := row.id
  checkUnwindable row.state (w.book.column m).curatorFlaggedAt.isSome
  -- a settled resolution key means money moved
  refuse (row.state = .resolving ∧ (w.ledger.txnByKey (resolveKey m)).isSome)
    (.app .illegalTransition)
  let owed ← w.openReceivablesTotal.mapError storeError
  refuse (policy.receivableOutstandingCapMicro ≤ owed) (.overCap policy.receivableOutstandingCapMicro)
  let legs ← (reversal w.ledger m).mapError OpsError.app
  let ledger ← (postReversal m legs.entries (w.ledger.account (cash .house))).mapError OpsError.app
  let reversalTxn := if legs.entries = [] then none else some (unwindLedgerKey m)
  let lineage ← (marketLedgerTxns w.ledger m).foldlM (recordReversal m reversalTxn) w.lineage
  let (receivables, movements) ←
    openReceivables facts m reversalTxn confirmer legs.shortfalls (w.receivables, w.movements)
  let store := (positionsForMarket w.book.store m).foldl (zeroPosition reversalTxn facts.now)
    { w.book.store with ledger := ledger }
  let state ← tombstone row.state
  facts.allocations.mapError OpsError.app
  let applied := { u with
    stage := .applied, confirmerTokenId := some confirmer, reversalTxn := reversalTxn }
  let book := (({ w.book with store := store }).setMarketState m state).setColumn
    (unwoundColumns facts.now (w.book.column m))
  pure (applied, ({ w with
    book := book, receivables := receivables, movements := movements
    lineage := lineage }).saveUnwind applied)

/-- Stage 1. The same proposal again is answered with the one there is. -/
def propose (policy : UnwindPolicy) (facts : UnwindFacts) (cmd : UnwindCmd) (proposer : String)
    (w : World) : Except OpsError (MarketUnwind × World) := do
  let row ← okOr (w.book.store.market cmd.market) (storeError (.notFound "market"))
  checkUnwindable row.state (w.book.column cmd.market).curatorFlaggedAt.isSome
  match find MarketUnwind.market cmd.market w.unwinds with
  | some u =>
    if u.unwindKey = unwindKey cmd.market cmd.idempotencyKey ∧ u.stage = .proposed then pure (u, w)
    else .error (conflict "unwind already exists for this market")
  | none => do
    let u : MarketUnwind :=
      { market := cmd.market, unwindKey := unwindKey cmd.market cmd.idempotencyKey
        stage := .proposed, proposerTokenId := proposer, confirmerTokenId := none
        reason := cmd.reason, confirmNotBefore := policy.confirmNotBefore facts.now
        reversalTxn := none }
    let w' ← w.insertUnwind u
    pure (u, w')

/-- Stage 2. An expired proposal is marked so by a transaction that is answered with an
error: the inner result is the answer of what was committed. -/
def confirm (policy : UnwindPolicy) (facts : UnwindFacts) (cmd : UnwindCmd) (confirmer : String)
    (w : World) : Except OpsError (Except OpsError MarketUnwind × World) := do
  let row ← okOr (w.book.store.market cmd.market) (storeError (.notFound "market"))
  let u ← okOr (find MarketUnwind.market cmd.market w.unwinds) (conflict "no unwind proposed")
  if u.stage = .applied then pure (.ok u, w)
  else do
    refuse (u.stage ≠ .proposed) (conflict "unwind is not pending")
    refuse (u.proposerTokenId = confirmer) (conflict "confirm requires a distinct principal")
    refuse (facts.now < u.confirmNotBefore) (conflict "dual-control delay has not elapsed")
    if policy.expiresAt u.confirmNotBefore < facts.now then
      pure (.error (conflict "unwind expired"), w.saveUnwind { u with stage := .expired })
    else do
      let (applied, w') ← w.unwind policy facts row u confirmer
      pure (.ok applied, w')

def reject (cmd : UnwindCmd) (w : World) : Except OpsError (MarketUnwind × World) := do
  let u ← okOr (find MarketUnwind.market cmd.market w.unwinds) (conflict "no unwind proposed")
  refuse (u.stage ≠ .proposed) (conflict "unwind is not pending")
  let rejected := { u with stage := .rejected }
  pure (rejected, w.saveUnwind rejected)

def insertMovement (w : World) (mv : ReceivableMovement) : Except OpsError World := do
  refuse (mv.idempotencyKey ∈ w.movements.map ReceivableMovement.idempotencyKey)
    (storeError (.conflict "receivable movement key"))
  pure { w with movements := w.movements ++ [mv] }

/-- A write-off compensates the user at the market's YES outcome. -/
def writeOff (w : World) (mv : ReceivableMovement) (now : Instant) : Except OpsError World := do
  let r ← okOr (find Receivable.id mv.receivable w.receivables) (storeError (.notFound "receivable"))
  let w' ← w.insertMovement mv
  pure { w' with book := { w'.book with store := { w'.book.store with
    realizations := insertRealization w'.book.store.realizations
      { ledgerKey := r.originReversalTxn, user := r.user, outcome := ⟨r.market, .yes⟩
        realizedDelta := mv.amountMicro, payout := 0, createdAt := now } } } }

end World

/-- The escrows and pools of the markets. -/
def IsMarket (k : AccountKey) : Prop := ∃ m, isMarketAccount m k = true

/-- A posting of another use case is on no account of a market. -/
def Clear : Payout.Command → Prop
  | .market (.post _ _ entries _) => ∀ e ∈ entries, ¬IsMarket e.account
  | _ => True

inductive Command
  | book (c : Payout.Command) (clear : Clear c)
  | propose (policy : UnwindPolicy) (facts : UnwindFacts) (cmd : UnwindCmd) (proposer : String)
  | confirm (policy : UnwindPolicy) (facts : UnwindFacts) (cmd : UnwindCmd) (confirmer : String)
  | reject (cmd : UnwindCmd)
  | collect (mv : ReceivableMovement)
  | writeOff (mv : ReceivableMovement) (now : Instant)

def World.step (w : World) : Command → Except OpsError World
  | .book c _ => do
    let book ← (w.book.step c).mapError OpsError.app
    pure { w with book := book }
  | .propose policy facts cmd proposer => (w.propose policy facts cmd proposer).map Prod.snd
  | .confirm policy facts cmd confirmer => (w.confirm policy facts cmd confirmer).map Prod.snd
  | .reject cmd => (w.reject cmd).map Prod.snd
  | .collect mv => w.insertMovement mv
  | .writeOff mv now => w.writeOff mv now

end Opinions.Unwind
