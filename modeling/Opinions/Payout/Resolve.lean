import Opinions.Payout.Book

/-! `ResolveMarket::execute` (`application/src/resolve_market.rs`) on the whole book: the
replay by the payout's ledger key, the gates, the hold of a large escrow, and the payout
with its transaction, the closed positions, their realization facts and the result of the
liquidity provider. -/

namespace Opinions.Payout

open Lib.Checked Lib.Result Lib.Rows Domain.Ledger Domain.Market Domain.Resolution
open Model Store Trade Resolve Credit

/-- A flagged market needs an override, any other refuses one; an unflagged one under
review needs a report that passed. -/
def gate (b : Book) (market : MarketRow) (curatorOverride : Option CuratorDecision) :
    Except AppError Unit :=
  if market.state = .resolving then
    if (b.column market.id).curatorFlaggedAt.isSome then
      refuse (curatorOverride = none) .curatorRequired
    else do
      refuse (curatorOverride ≠ none) .curatorOverrideNotAllowed
      refuse (b.report market.id ≠ some .pass) .underReview
  else refuse (curatorOverride ≠ none) .curatorOverrideNotAllowed

/-- Whether the market is voided, and at which basis points it settles. -/
def decision (cfg : ResolveConfig) (b : Book) (market : MarketRow) :
    Option CuratorDecision → Except AppError (Bool × Nat)
  | some .resolveAtTally => do
    let bps ← okOr (b.tally market.id).actualYesBps .needsCuratorDecision
    pure (false, bps)
  | some .void => .ok (true, 5000)
  | none => decide (b.tally market.id) market.minVotesToResolve (b.openInterest market.id)
      cfg.oiFloor

def payoutUsers (paid : List (HoldingLine AccountKey × Int)) : List UserId :=
  sortUsers (paid.filterMap fun p => match holder p.1 with
    | .user user => if (0 : Int) < p.2 then some user else none
    | .pool => none)

/-- A paid holding closes its position and realizes its profit; the pool's payouts are
added up. -/
def settleHolding (m : MarketId) (settledAt : Instant) (acc : Store × Int)
    (paid : HoldingLine AccountKey × Int) : Except AppError (Store × Int) :=
  match holder paid.1 with
  | .pool => do
    let poolPayout ← okOr (tryI64 (acc.2 + paid.2)) .overflow
    pure (acc.1, poolPayout)
  | .user user => do
    let position ← okOr (acc.1.position user ⟨m, paid.1.side⟩)
      (.store (.invariant "settled holding without position"))
    let delta ← okOr (tryI64 (paid.2 - position.cost)) .overflow
    let realizedPnl ← okOr (tryI64 (position.realizedPnl + delta)) .overflow
    pure ({ acc.1 with
      positions := upsert Store.positionKey
        { position with shares := 0, cost := 0, realizedPnl := realizedPnl } acc.1.positions
      realizations := acc.1.realizations ++
        [{ ledgerKey := resolveKey m, user := user, outcome := ⟨m, paid.1.side⟩
           realizedDelta := delta, payout := paid.2, createdAt := settledAt }] }, acc.2)

/-- The grant facts of a referee, with the bind as the book has it. -/
def referralFacts (facts : ResolveFacts) (b : Book) (referee : UserId) : ReferralFacts :=
  { facts.referral referee with
    bind := (b.bindFor referee).map ReferralBind.id
    parties := (b.bindFor referee).map fun bind => (bind.referrer, bind.referee) }

/-- The payout as the credit tables see it. -/
def creditResolve (facts : ResolveFacts) (b : Book) (m : MarketId)
    (paid : List (HoldingLine AccountKey × Int)) (dust : Int) (voided : Bool) : CreditResolve :=
  { market := m, gate := .ok (), payouts := paid.map fun p => (holder p.1, p.2), dust := dust
    collections := (payoutUsers paid).map fun user => (user, facts.receivables user)
    voided := voided, settledAt := facts.settledAt
    referrals := (b.referees m).map fun referee => (referee, referralFacts facts b referee)
    fresh := facts.fresh }

/-- A voided market scores nobody. -/
def scoreVotes (facts : ResolveFacts) (voided : Bool) : Except AppError Unit :=
  if voided then .ok () else facts.scored

/-- A voided market finalizes no fees and grants no referrals. -/
def finalizeCredits (facts : ResolveFacts) (credit : CreditResolve) (l : Ledger) :
    Except AppError Ledger :=
  if credit.voided then .ok l
  else (finalizePaid credit { facts.credits with ledger := l }).map CreditDb.ledger

def paidColumns (facts : ResolveFacts) (b : Book) (m : MarketId)
    (curatorOverride : Option CuratorDecision) (escrow lpPnl : Int) (finalBps : Nat) :
    MarketColumns :=
  { b.column m with
    curatorFlaggedAt := if curatorOverride.isSome then none else (b.column m).curatorFlaggedAt
    collateralAtClose := some escrow, lpPnl := some lpPnl, settledAt := some facts.settledAt
    finalVoteBps := some finalBps }

def payOut (cfg : ResolveConfig) (facts : ResolveFacts) (market : MarketRow)
    (entered : MarketState) (escrow : Int) (curatorOverride : Option CuratorDecision) (b : Book) :
    Except AppError (ResolveReceipt × Book) := do
  let m := market.id
  let (voided, finalBps) ← decision cfg b market curatorOverride
  let holdings ← b.store.holdings m
  let lines := listHoldings facts.accountId holdings
  let st ← (settleMarket lines finalBps escrow).mapError .resolution
  let entries ← settlementEntries (cash (.marketEscrow m)) (cash .fees) st
  let opened := (b.store.ledger.account (cash (.marketEscrow m))).account (cash .fees)
  let posted ← (opened.ledgerApply .payout (resolveKey m) entries).mapError .store
  let paid := lines.zip (st.payouts.map Prod.snd)
  let credit := creditResolve facts b m paid st.dust voided
  let collected ← collectPayouts credit posted
  let (store, poolPayout) ← paid.foldlM (settleHolding m facts.settledAt)
    ({ b.store with ledger := collected }, 0)
  let pool ← okOr (store.pool m) (.store (.notFound "pool"))
  let lpPnl ← okOr (tryI64 (poolPayout - pool.seeded)) .overflow
  let _ ← (redemptions finalBps).mapError .resolution
  scoreVotes facts voided
  let state ← finalState entered curatorOverride voided
  let ledger ← finalizeCredits facts credit store.ledger
  let paidBook := ({ b with store := { store with ledger := ledger } }).setMarketState m state
  pure (⟨m, if voided then .voided else .settled, some finalBps, false⟩,
    paidBook.setColumn (paidColumns facts b m curatorOverride escrow lpPnl finalBps))

/-- A large escrow is held for a sweep after a delay. -/
def holdForReview (cfg : ResolveConfig) (facts : ResolveFacts) (market : MarketRow)
    (entered : MarketState) (b : Book) : Except AppError (ResolveReceipt × Book) := do
  let delay ← okOr (tryI64 cfg.sweepDelaySecs) .overflow
  let dueAt := facts.now + seconds delay
  let due := { b.column market.id with integrityDueAt := some dueAt }
  let held ← ((b.setMarketState market.id entered).setColumn due).recordCommand
    (sweepKey market.id) ⟨market.id, .startIntegritySweep, entered⟩
  pure (⟨market.id, .heldForReview dueAt, none, false⟩, held)

/-- The receipt of a market whose payout key is booked. -/
def replayReceipt (b : Book) (m : MarketId) : Except AppError ResolveReceipt := do
  let market ← okOr (b.store.market m) (.store (.notFound "market"))
  match market.state with
  | .voided => pure ⟨m, .voided, some 5000, true⟩
  | .paid => do
    let bps ← okOr (b.tally m).actualYesBps (.store (.invariant "paid market without a tally"))
    pure ⟨m, .settled, some bps, true⟩
  | _ => .error (.store (.invariant "resolve key exists but market is not settled"))

def resolveLocked (cfg : ResolveConfig) (facts : ResolveFacts) (market : MarketRow)
    (curatorOverride : Option CuratorDecision) (b : Book) :
    Except AppError (ResolveReceipt × Book) := do
  gate b market curatorOverride
  let entered ← enterResolving market.state
  let escrow ← (b.escrowBalance market.id).mapError .store
  if market.state = .closed ∧ cfg.payoutHoldThresholdMicro ≤ escrow then
    holdForReview cfg facts market entered b
  else payOut cfg facts market entered escrow curatorOverride b

/-- `ResolveMarket::execute` with no other transaction in between. -/
def resolveMarket (cfg : ResolveConfig) (facts : ResolveFacts) (m : MarketId)
    (curatorOverride : Option CuratorDecision) (b : Book) :
    Except AppError (ResolveReceipt × Book) :=
  match b.store.ledger.txnByKey (resolveKey m) with
  | some _ => do
    let receipt ← replayReceipt b m
    pure (receipt, b)
  | none => do
    let _ ← b.participants m
    facts.reps
    let market ← okOr (b.store.market m) (.store (.notFound "market"))
    resolveLocked cfg facts market curatorOverride b

end Opinions.Payout
