import Opinions.Money.Tables

/-! Bonus credit lots and the fees allocated to them (`application/src/money/credits.rs`,
`adapters/src/pg/credit_tx.rs`). A trade's fee is split over the user's open lots, oldest
first. An allocation is provisional until its market is paid, which moves it to
finalized; an unwind reverses it. A real-money lot whose finalized fees cover its amount
may be converted. -/

namespace Opinions.Credit

open Lib.Checked Lib.Result Lib.Rows Model Store Trade Money

inductive GrantClass
  | realMoney
  | sweeps
  deriving DecidableEq

structure CreditLotRow where
  id : Uuid
  user : UserId
  source : String
  amountMicro : Int
  grantedAt : Instant
  grantClass : GrantClass
  policyVersion : String
  convertedAt : Option Instant

inductive AllocationKind
  | allocated
  | finalized
  | reversed
  deriving DecidableEq

structure AllocationFact where
  id : Uuid
  tradeId : Uuid
  lotId : Uuid
  splitSeq : Int
  amountMicro : Int
  kind : AllocationKind
  sourceAllocationId : Option Uuid
  idempotencyKey : String
  deriving DecidableEq

/-- What the allocations read of a trade. -/
structure FeeTrade where
  id : Uuid
  market : MarketId
  feeMicro : Int

structure LotCapacity where
  lotId : Uuid
  remainingMicro : Int

/-- Fill the lots in the order given until the fee is used up. -/
def splitOldestFirst : List LotCapacity → Int → List (Uuid × Int × Int)
  | [], _ => []
  | lot :: lots, feeMicro =>
    if feeMicro ≤ 0 then []
    else if lot.remainingMicro ≤ 0 then splitOldestFirst lots feeMicro
    else
      let take := min feeMicro lot.remainingMicro
      (lot.lotId, 0, take) :: splitOldestFirst lots (feeMicro - take)

/-- What lots have room for. -/
def roomOf (lots : List LotCapacity) : Int := (lots.map fun lot => max lot.remainingMicro 0).sum

def splitTotal (split : List (Uuid × Int × Int)) : Int := (split.map fun t => t.2.2).sum

theorem roomOf_nonneg (lots : List LotCapacity) : 0 ≤ roomOf lots :=
  sum_nonneg fun _ _ => le_max_right _ _

theorem splitTotal_splitOldestFirst (lots : List LotCapacity) (feeMicro : Int) :
    splitTotal (splitOldestFirst lots feeMicro) = min (max feeMicro 0) (roomOf lots) := by
  fun_induction splitOldestFirst lots feeMicro with
  | case1 => simp [splitTotal, roomOf]
  | case2 lot lots fee hfee =>
    have hroom := roomOf_nonneg (lot :: lots)
    simp only [splitTotal, List.map_nil, List.sum_nil]
    omega
  | case3 lot lots fee hfee hfull ih =>
    rw [ih, roomOf, roomOf, List.map_cons, List.sum_cons, max_eq_right hfull, zero_add]
  | case4 lot lots fee hfee hopen take ih =>
    have hroom := roomOf_nonneg lots
    simp only [splitTotal, roomOf, List.map_cons, List.sum_cons] at ih hroom ⊢
    omega

theorem splitOldestFirst_nonpos (lots : List LotCapacity) {feeMicro : Int} (h : feeMicro ≤ 0) :
    splitOldestFirst lots feeMicro = [] := by
  cases lots <;> simp [splitOldestFirst, h]

/-- A fee fills the lots in the order they are given: any first part of them takes the fee or
all it has room for, in positive amounts, and the other lots share exactly what is left. -/
theorem splitOldestFirst_fills (older newer : List LotCapacity) (feeMicro : Int) :
    splitTotal (splitOldestFirst older feeMicro) = min (max feeMicro 0) (roomOf older) ∧
      splitOldestFirst (older ++ newer) feeMicro = splitOldestFirst older feeMicro ++
        splitOldestFirst newer (feeMicro - min (max feeMicro 0) (roomOf older)) ∧
      ∀ t ∈ splitOldestFirst older feeMicro, 0 < t.2.2 := by
  refine ⟨splitTotal_splitOldestFirst older feeMicro, ?_, ?_⟩
  · rw [← splitTotal_splitOldestFirst]
    fun_induction splitOldestFirst older feeMicro with
    | case1 => simp [splitTotal]
    | case2 lot lots fee hfee =>
      have hrest : fee - splitTotal [] ≤ 0 := by simpa [splitTotal] using hfee
      rw [splitOldestFirst_nonpos _ hfee, splitOldestFirst_nonpos _ hrest]
      rfl
    | case3 lot lots fee hfee hfull ih => simp [splitOldestFirst, hfee, hfull, ih]
    | case4 lot lots fee hfee hopen take ih =>
      rw [splitTotal, List.map_cons, List.sum_cons, ← sub_sub, List.cons_append, splitOldestFirst,
        if_neg hfee, if_neg hopen]
      exact congrArg _ ih
  · fun_induction splitOldestFirst older feeMicro with
    | case1 | case2 => exact List.forall_mem_nil _
    | case3 lot lots fee hfee hfull ih => exact ih
    | case4 lot lots fee hfee hopen take ih =>
      refine List.forall_mem_cons.2 ⟨?_, ih⟩
      dsimp only
      omega

/-- The allocations of `facts` that ended in a fact of the kind. -/
def endedAs (kind : AllocationKind) (facts : List AllocationFact) (lotId : Uuid) : List Uuid :=
  (facts.filter fun f => f.lotId = lotId ∧ f.kind = kind).filterMap
    AllocationFact.sourceAllocationId

def amountOf (facts : List AllocationFact) : Int := (facts.map AllocationFact.amountMicro).sum

def lotProgress (facts : List AllocationFact) (lotId : Uuid) : Int × Int :=
  let allocated := facts.filter fun f => f.lotId = lotId ∧ f.kind = .allocated
  let ended := allocated.filter fun f =>
    f.id ∈ endedAs .finalized facts lotId ∨ f.id ∈ endedAs .reversed facts lotId
  let finalized := facts.filter fun f => f.lotId = lotId ∧ f.kind = .finalized
  (max (amountOf allocated - amountOf ended) 0, amountOf finalized)

def lotRemaining (lot : CreditLotRow) (facts : List AllocationFact) : Int :=
  if lot.convertedAt.isSome then 0
  else
    let (provisional, finalized) := lotProgress facts lot.id
    max (lot.amountMicro - provisional - finalized) 0

def CreditLotRow.owed (lot : CreditLotRow) : Bool :=
  lot.grantClass = .realMoney ∧ lot.convertedAt = none

def lotReadyToConvert (lot : CreditLotRow) (facts : List AllocationFact) : Bool :=
  lot.owed ∧ lot.amountMicro ≤ (lotProgress facts lot.id).2

def remainingRealMoneyPromise (lots : List CreditLotRow) : Int :=
  ((lots.filter CreditLotRow.owed).map CreditLotRow.amountMicro).sum

inductive AllocError
  | duplicateAllocated
  | zeroAmount

def checkAllocate (existing : List AllocationFact) (tradeId lotId : Uuid)
    (splitSeq amountMicro : Int) : Except AllocError Unit := do
  refuse (amountMicro ≤ 0) .zeroAmount
  refuse (∃ f ∈ existing, f.tradeId = tradeId ∧ f.lotId = lotId ∧ f.splitSeq = splitSeq ∧
    f.kind = .allocated) .duplicateAllocated

def uuidText (u : Uuid) : String := String.ofList u.text

def decimal (n : Int) : String := String.ofList (Int.repr n).toList

/-- Oldest first, equal times by identity. -/
def lotBefore (a b : CreditLotRow) : Bool :=
  a.grantedAt < b.grantedAt ∨ a.grantedAt = b.grantedAt ∧ a.id.toNat ≤ b.id.toNat

/-- The allocated facts of one trade fee; `fresh` names them. -/
def planTradeAllocations (lots : List CreditLotRow) (facts : List AllocationFact) (tradeId : Uuid)
    (feeMicro : Int) (fresh : Uuid → Uuid) : Except AllocError (List AllocationFact) :=
  let opened := (lots.filter fun lot => lot.convertedAt.isNone).insertionSort fun a b => lotBefore a b
  let capacities := opened.map fun lot => (⟨lot.id, lotRemaining lot facts⟩ : LotCapacity)
  (splitOldestFirst capacities feeMicro).mapM fun (lotId, splitSeq, amount) => do
    checkAllocate facts tradeId lotId splitSeq amount
    pure { id := fresh lotId, tradeId := tradeId, lotId := lotId, splitSeq := splitSeq
           amountMicro := amount, kind := .allocated, sourceAllocationId := none
           idempotencyKey := "alloc:" ++ uuidText tradeId ++ ":" ++ uuidText lotId ++ ":" ++
            decimal splitSeq }

structure CreditDb where
  ledger : Ledger
  lots : List CreditLotRow
  /-- The idempotency keys of lots. -/
  lotKeys : List (String × Uuid)
  allocations : List AllocationFact
  trades : List FeeTrade

namespace CreditDb

def empty : CreditDb :=
  { ledger := Ledger.empty, lots := [], lotKeys := [], allocations := [], trades := [] }

def lotsForUser (db : CreditDb) (user : UserId) : List CreditLotRow :=
  (db.lots.filter fun lot => lot.user = user).insertionSort fun a b => lotBefore a b

def allocationsForLot (db : CreditDb) (lot : Uuid) : List AllocationFact :=
  db.allocations.filter fun f => f.lotId = lot

def lotByIdempotency (db : CreditDb) (key : String) : Option CreditLotRow :=
  (find Prod.fst key db.lotKeys).bind fun k => find CreditLotRow.id k.2 db.lots

def insertCreditLot (db : CreditDb) (lot : CreditLotRow) : Except StoreError CreditDb := do
  refuse (lot.id ∈ db.lots.map CreditLotRow.id) (.integrity "credit_grant_lots_pkey")
  refuse (lot.amountMicro ≤ 0) (.integrity "credit_grant_lots_amount_micro_check")
  pure { db with lots := db.lots ++ [lot] }

def rememberLotIdempotency (db : CreditDb) (key : String) (lot : Uuid) :
    Except StoreError CreditDb := do
  refuse (lot ∉ db.lots.map CreditLotRow.id ∨ lot ∈ db.lotKeys.map Prod.snd)
    (.invariant "credit lot idempotency mapping missing")
  refuse (key ∈ db.lotKeys.map Prod.fst) (.conflict "credit lot idempotency")
  pure { db with lotKeys := db.lotKeys ++ [(key, lot)] }

def stamped (now : Instant) (lot : CreditLotRow) : CreditLotRow := { lot with convertedAt := some now }

def markLotConverted (db : CreditDb) (lot : Uuid) (now : Instant) : Except StoreError CreditDb := do
  refuse ((find CreditLotRow.id lot db.lots).bind (fun row => some row.convertedAt) ≠ some none)
    (.conflict "credit lot conversion")
  pure { db with lots := update CreditLotRow.id lot (stamped now) db.lots }

def bonusMintedSince (db : CreditDb) (since : Instant) : Except StoreError Int :=
  MoneyDb.bigint
    ((db.lots.filter fun lot => since ≤ lot.grantedAt).map CreditLotRow.amountMicro).sum

/-- What counts against a trade's fee or a lot's amount. -/
def netAllocated (facts : List AllocationFact) : Int :=
  (facts.map fun f => match f.kind with
    | .allocated => f.amountMicro
    | .reversed => -f.amountMicro
    | .finalized => 0).sum

/-- An allocation fits the fee of its trade and the amount of its lot. -/
def checkAllocated (db : CreditDb) (fact : AllocationFact) : Except StoreError Unit := do
  refuse (fact.sourceAllocationId ≠ none) (.invariant "allocated credit fact names a source")
  let trade ← okOr (find FeeTrade.id fact.tradeId db.trades) (.notFound "trade")
  let tradeProgress ← MoneyDb.bigint
    (netAllocated (db.allocations.filter fun f => f.tradeId = fact.tradeId))
  let nextTrade ← okOr (tryI64 (tradeProgress + fact.amountMicro))
    (.invariant "credit allocation overflow")
  refuse (trade.feeMicro < nextTrade) (.invariant "credit allocation exceeds trade fee")
  let lot ← okOr (find CreditLotRow.id fact.lotId db.lots) (.notFound "credit lot")
  let progress ← MoneyDb.bigint
    (netAllocated (db.allocations.filter fun f => f.lotId = fact.lotId))
  let nextLot ← okOr (tryI64 (progress + fact.amountMicro))
    (.invariant "credit allocation overflow")
  refuse (lot.amountMicro < nextLot) (.invariant "credit allocation exceeds lot requirement")

/-- A terminal fact moves exactly its source, once. -/
def checkTerminal (db : CreditDb) (fact : AllocationFact) : Except StoreError Unit := do
  let sourceId ← okOr fact.sourceAllocationId
    (.invariant "terminal credit allocation missing source")
  let source ← okOr (find AllocationFact.id sourceId db.allocations)
    (.notFound "credit allocation source")
  refuse (source.kind ≠ .allocated ∨ source.tradeId ≠ fact.tradeId ∨ source.lotId ≠ fact.lotId ∨
    source.splitSeq ≠ fact.splitSeq ∨ source.amountMicro ≠ fact.amountMicro)
    (.invariant "terminal credit allocation does not exactly move source")
  refuse (∃ f ∈ db.allocations, f.sourceAllocationId = some sourceId)
    (.conflict "credit allocation terminal")

/-- What a fact must meet depends on its kind. -/
def checkFact (db : CreditDb) (fact : AllocationFact) : Except StoreError Unit :=
  match fact.kind with
  | .allocated => db.checkAllocated fact
  | .finalized | .reversed => db.checkTerminal fact

/-- The fact as a retry would write it: under a new id. -/
def sameAllocation (a b : AllocationFact) : Bool := { a with id := b.id } = b

def insertAllocation (db : CreditDb) (fact : AllocationFact) : Except StoreError CreditDb :=
  match find AllocationFact.idempotencyKey fact.idempotencyKey db.allocations with
  | some existing => do
    refuse (sameAllocation existing fact = false) (.conflict "credit allocation idempotency")
    pure db
  | none => do
    db.checkFact fact
    refuse (fact.id ∈ db.allocations.map AllocationFact.id) (.conflict "credit allocation")
    refuse (fact.kind = .allocated ∧ ∃ f ∈ db.allocations, f.kind = .allocated ∧
      f.tradeId = fact.tradeId ∧ f.lotId = fact.lotId ∧ f.splitSeq = fact.splitSeq)
      (.conflict "credit allocation")
    refuse (fact.amountMicro ≤ 0) (.integrity "credit_fee_allocations_amount_micro_check")
    pure { db with allocations := db.allocations ++ [fact] }

/-- The allocations of a market that have no terminal fact. -/
def liveMarketAllocations (db : CreditDb) (market : MarketId) : List AllocationFact :=
  db.allocations.filter fun a => a.kind = .allocated ∧
    (∃ t ∈ db.trades, t.id = a.tradeId ∧ t.market = market) ∧
    ∀ f ∈ db.allocations, f.sourceAllocationId ≠ some a.id

inductive Terminal
  | finalized
  | reversed

def Terminal.kind : Terminal → AllocationKind
  | .finalized => .finalized
  | .reversed => .reversed

def Terminal.label : Terminal → String
  | .finalized => "final"
  | .reversed => "rev"

/-- Every live allocation of the market gains its terminal fact. -/
def moveMarketAllocations (db : CreditDb) (market : MarketId) (terminal : Terminal)
    (fresh : Uuid → Uuid) : Except StoreError CreditDb :=
  (db.liveMarketAllocations market).foldlM (fun db a => db.insertAllocation
    { a with id := fresh a.id, kind := terminal.kind, sourceAllocationId := some a.id
             idempotencyKey := terminal.label ++ ":" ++ uuidText a.tradeId ++ ":" ++ uuidText a.id })
    db

end CreditDb

end Opinions.Credit
