import Opinions.Credit.Grant
import Opinions.Ops.Reversal
import Opinions.Trade.Settle

/-! The credit machine: every transaction that grants, allocates, finalizes, reverses or
converts bonus credit, as one step on the lots and the ledger. Quotes, settlements and the
checks around them are inputs. The rest of the system leaves the reserve and the users'
credit accounts alone, and the reserve is topped up. -/

namespace Opinions.Credit

open Lib.Result Domain.Ledger Domain.Resolution Model Store Trade Money Ops

/-- The reserve, or the credit of a user. -/
def IsBonus (k : AccountKey) : Prop := k = cash .bonusReserve ∨ ∃ user, k = credit (.user user)

def postEntries (kind : TxnKind) (key : String) (entries : List (Entry AccountKey)) (l : Ledger) :
    Except AppError Ledger :=
  ((openAll l entries).ledgerApply kind key entries).mapError .store

structure CreditTrade where
  cmd : PlaceTradeCmd
  legs : QuotedLegs
  now : Instant
  receivables : List Int
  /-- Every other check of the trade. -/
  gate : Gate
  tradeId : Uuid
  fresh : Uuid → Uuid

def allocateFee (t : CreditTrade) (db : CreditDb) : Except AppError CreditDb :=
  if 0 < t.legs.fee then do
    let lots := db.lotsForUser t.cmd.user
    let facts := lots.flatMap fun lot => db.allocationsForLot lot.id
    let planned ← (planTradeAllocations lots facts t.tradeId t.legs.fee t.fresh).mapError fun _ =>
      AppError.store (.invariant "credit allocation algebra")
    planned.foldlM (fun db fact => (db.insertAllocation fact).mapError .store) db
  else pure db

/-- The credit side of `PlaceTrade::execute`. -/
def bookTrade (t : CreditTrade) (db : CreditDb) : Except AppError CreditDb :=
  match db.ledger.txnByKey t.cmd.idempotencyKey with
  | some _ => pure db
  | none => do
    let converted ← db.convertThenCollect t.cmd.user t.now t.cmd.idempotencyKey t.receivables
    t.gate.mapError Subtype.val
    let ledger ← ((openTradeAccounts converted.ledger t.cmd t.legs).ledgerApply .trade
      t.cmd.idempotencyKey (tradeEntries t.cmd t.legs)).mapError .store
    refuse (t.tradeId ∈ converted.trades.map FeeTrade.id) (.store (.integrity "trades_pkey"))
    allocateFee t { converted with
      ledger := ledger
      trades := converted.trades ++ [⟨t.tradeId, t.cmd.market, t.legs.fee⟩] }

inductive HoldingOwner
  | user (user : UserId)
  | pool

def HoldingOwner.account (m : MarketId) : HoldingOwner → AccountKey
  | .user holder => cash (.user holder)
  | .pool => cash (.marketPool m)

/-- A market's settlement, the users to collect from and the referees to grant for. -/
structure CreditResolve where
  market : MarketId
  gate : Gate
  payouts : List (HoldingOwner × Int)
  dust : Int
  collections : List (UserId × List Int)
  voided : Bool
  settledAt : Instant
  referrals : List (UserId × ReferralFacts)
  fresh : Uuid → Uuid

def resolveKey (m : MarketId) : String := "resolve:" ++ uuidText m.uuid

def CreditResolve.settlement (r : CreditResolve) : Settlement AccountKey :=
  { payouts := r.payouts.map fun p => (p.1.account r.market, p.2), dust := r.dust }

def collectPayouts (r : CreditResolve) (l : Ledger) : Except AppError Ledger :=
  r.collections.foldlM (fun l p =>
    autoCollect l p.1 ("payout:" ++ uuidText r.market.uuid ++ ":" ++ uuidText p.1.uuid) p.2) l

/-- Only a paid market finalizes its fees and grants its referrals. -/
def finalizePaid (r : CreditResolve) (db : CreditDb) : Except AppError CreditDb := do
  let finalized ← (db.moveMarketAllocations r.market .finalized r.fresh).mapError .store
  r.referrals.foldlM (fun db p =>
    (grantReferralOnPaid p.2 ⟨p.1, r.market, r.settledAt⟩ db).map Prod.snd) finalized

/-- The credit side of `ResolveMarket::execute`. -/
def resolve (r : CreditResolve) (db : CreditDb) : Except AppError CreditDb :=
  match db.ledger.txnByKey (resolveKey r.market) with
  | some _ => pure db
  | none => do
    r.gate.mapError Subtype.val
    let entries ← settlementEntries (cash (.marketEscrow r.market)) (cash .fees) r.settlement
    let paid ← postEntries .payout (resolveKey r.market) entries db.ledger
    let ledger ← collectPayouts r paid
    let settled : CreditDb := { db with ledger := ledger }
    if r.voided then pure settled else finalizePaid r settled

structure CreditUnwind where
  market : MarketId
  gate : Gate
  fresh : Uuid → Uuid

def postReversal (m : MarketId) (entries : List (Entry AccountKey)) (l : Ledger) :
    Except AppError Ledger :=
  if entries = [] then pure l else postEntries .reversal (unwindLedgerKey m) entries l

/-- The credit side of `UnwindMarket::confirm`. -/
def unwind (u : CreditUnwind) (db : CreditDb) : Except AppError CreditDb := do
  u.gate.mapError Subtype.val
  let legs ← reversal db.ledger u.market
  let ledger ← postReversal u.market legs.entries db.ledger
  (({ db with ledger := ledger } : CreditDb).moveMarketAllocations u.market .reversed
    u.fresh).mapError .store

inductive Command
  | grant (facts : GrantFacts) (cmd : GrantCreditCmd)
  | referral (facts : ReferralFacts) (cmd : GrantReferralCmd)
  | trade (t : CreditTrade)
  | resolve (r : CreditResolve)
  | unwind (u : CreditUnwind)
  /-- Any other transaction that locks a user. -/
  | convert (user : UserId) (now : Instant) (key : String) (receivables : List Int)
  | topUp (kind : TxnKind) (key : String) (amount : Int) (positive : 0 < amount)
  | post (kind : TxnKind) (key : String) (entries : List (Entry AccountKey))
      (plain : ∀ e ∈ entries, ¬IsBonus e.account)

def topUpEntries (amount : Int) : List (Entry AccountKey) :=
  [⟨cash .house, -amount⟩, ⟨cash .bonusReserve, amount⟩]

namespace CreditDb

def step (db : CreditDb) : Command → Except AppError CreditDb
  | .grant facts cmd => (grantCredit facts cmd db).map Prod.snd
  | .referral facts cmd => (grantReferral facts cmd db).map Prod.snd
  | .trade t => bookTrade t db
  | .resolve r => Credit.resolve r db
  | .unwind u => Credit.unwind u db
  | .convert user now key receivables => db.convertThenCollect user now key receivables
  | .topUp kind key amount _ => do
    let ledger ← postEntries kind key (topUpEntries amount) db.ledger
    pure { db with ledger := ledger }
  | .post kind key entries _ => do
    let ledger ← postEntries kind key entries db.ledger
    pure { db with ledger := ledger }

end CreditDb

end Opinions.Credit
