import Opinions.Trade.Place

/-! Seeding a market (`application/src/seed_market.rs`). The seed moves from the
house to the market's escrow and mints as many shares of each side into the
pool. -/

namespace Opinions.Trade

open Lib.Result Domain.Amm Domain.Market Config Model Opinions.Store

structure SeedMarketCmd where
  marketId : MarketId
  slug : String
  minVotesToResolve : Int
  closesAt : Instant
  tallyHiddenAt : Instant
  fee : Nat
  seed : Int
  idempotencyKey : String
  force : Bool

/-- The liquidity-loss breaker as the seed finds it. -/
structure LpFacts where
  lpPnl : Int
  maxLossMicro : Int

/-- The market whose escrow a seed transaction with this key credited. -/
def seededMarketByKey (l : Ledger) (key : String) : Option MarketId := do
  let txn ← l.txnByKey key
  if txn.kind = .seed then
    txn.entries.findSome? fun e =>
      match e.account.owner with
      | .marketEscrow m => if 0 < e.amount then some m else none
      | _ => none
  else none

def seedLedgerError : StoreError → AppError
  | .ledger (.insufficientFunds _) => .insufficientFunds
  | e => .store e

def seedMarket (rep : RepConfig) (lp : LpFacts) (cmd : SeedMarketCmd) (s : Store) :
    Except AppError Store := do
  refuse (cmd.seed ≤ 0) (.amm .emptyPool)
  refuse (cmd.fee < rep.minFeeBps) (.seedFeeBelowMinimum cmd.fee rep.minFeeBps)
  match seededMarketByKey s.ledger cmd.idempotencyKey with
  | some _ => pure s
  | none => do
    refuse (lp.lpPnl ≤ -lp.maxLossMicro ∧ cmd.force = false) .lpPaused
    refuse (cmd.marketId ∈ s.markets.map MarketRow.id ∨ cmd.slug ∈ s.markets.map MarketRow.slug)
      (.store (.conflict "market"))
    refuse (cmd.marketId ∈ s.pools.map PoolRow.market) (.store (.conflict "pool"))
    let opened := ((s.ledger.account (cash (.marketPool cmd.marketId))).account
      (cash .house)).account (cash (.marketEscrow cmd.marketId))
    let ledger ← (opened.ledgerApply .seed cmd.idempotencyKey
      [⟨cash .house, -cmd.seed⟩, ⟨cash (.marketEscrow cmd.marketId), cmd.seed⟩]).mapError
      seedLedgerError
    let pool ← (Pool.new cmd.seed cmd.seed cmd.fee).mapError .amm
    let state ← (transition .draft .approve).mapError fun _ => AppError.illegalTransition
    pure { s with
      ledger := ledger
      markets := s.markets ++
        [{ id := cmd.marketId, slug := cmd.slug, state := state
           minVotesToResolve := cmd.minVotesToResolve, closesAt := cmd.closesAt
           tallyHiddenAt := cmd.tallyHiddenAt }]
      pools := s.pools ++ [{ market := cmd.marketId, pool := pool, seeded := cmd.seed }] }

end Opinions.Trade
