import Opinions.Config.Policy
import Opinions.Domain.Market
import Opinions.Domain.Resolution
import Opinions.Store.Accounts

/-! One trade as money and share legs (`quote_legs` in
`application/src/place_trade.rs`). A buy debits the gross amount, puts the net in
escrow and the fee in fees; a sell pays the net, takes the gross out of escrow
and the fee to fees, and relieves cost in proportion to the shares sold. -/

namespace Opinions.Trade

open Lib.Checked Lib.Result Domain.Amm Domain.Resolution Config Model Opinions.Store

/-- Business rejections of the use cases modelled here. -/
inductive AppError
  | marketNotOpen
  | tradingFrozen
  | voteRequired
  | insufficientShares
  | positionCapExceeded (capMicro : Int) (tier : Nat)
  | seedFeeBelowMinimum (baseBps minBps : Nat)
  | insufficientFunds
  | illegalTransition
  | useResolveMarket
  | needsCuratorDecision
  | curatorOverrideNotAllowed
  | underReview
  | curatorRequired
  | lpPaused
  | invalidCrowdGuess
  | votingClosed
  | alreadyVoted
  | phoneVerificationRequired
  | voteVelocityExceeded
  | accountTooYoungNearClose
  | staleConfig (previewGeneration currentGeneration : Int)
  | idempotencyConflict
  | tradingPaused
  | votingPaused
  | proposalConflict (why : String)
  | receivableOpen (outstandingMicro : Int)
  | adminForbidden (why : String)
  | configInvalid (key reason : String)
  | expectedConfigVersionRequired
  | moneyForbidden (why : String)
  | complianceHold (reason : String)
  | depositsPaused
  | insufficientBonusReserve (reserveMicro promisedMicro : Int)
  | referralIneligible
  | overflow
  | amm (e : AmmError)
  | resolution (e : ResolutionError)
  | store (e : StoreError)
  deriving DecidableEq

/-- An outcome row is unique per market and side. -/
structure OutcomeId where
  market : MarketId
  side : Side
  deriving DecidableEq

structure PlaceTradeCmd where
  market : MarketId
  user : UserId
  side : Side
  action : TradeAction
  amountMicro : Int
  idempotencyKey : String
  expectedConfigVersion : Option Int
  deriving DecidableEq

structure PositionRow where
  user : UserId
  outcome : OutcomeId
  shares : Int
  cost : Int
  realizedPnl : Int

structure QuotedLegs where
  shares : Int
  gross : Int
  fee : Int
  avgPriceMicro : Int
  poolAfter : Pool
  userDelta : Int
  escrowDelta : Int
  feeDelta : Int
  position : PositionRow
  realizedDelta : Option Int

def avgPriceMicro (gross shares : Int) : Except AppError Int := do
  refuse (shares ≤ 0) .overflow
  okOr (tryI64 ((gross * 1000000).tdiv shares)) .overflow

def freshPosition (user : UserId) (outcome : OutcomeId) : PositionRow :=
  { user := user, outcome := outcome, shares := 0, cost := 0, realizedPnl := 0 }

def buyLegs (cmd : PlaceTradeCmd) (pool : Pool) (position : PositionRow) (fee : Nat) :
    Except AppError QuotedLegs := do
  let gross := cmd.amountMicro
  let q ← (quoteBuy pool cmd.side gross fee).mapError .amm
  let net ← okOr (tryI64 (gross - q.fee)) .overflow
  let shares ← okOr (tryI64 (position.shares + q.sharesOut)) .overflow
  let cost ← okOr (tryI64 (position.cost + gross)) .overflow
  pure { shares := q.sharesOut, gross := gross, fee := q.fee
         avgPriceMicro := q.avgPriceMicroPerShare, poolAfter := q.poolAfter
         userDelta := -gross, escrowDelta := net, feeDelta := q.fee
         position := { position with shares := shares, cost := cost }
         realizedDelta := none }

def sellLegs (cmd : PlaceTradeCmd) (pool : Pool) (position : PositionRow) (fee : Nat) :
    Except AppError QuotedLegs := do
  let shares := cmd.amountMicro
  refuse (position.shares < shares ∨ shares ≤ 0) .insufficientShares
  let q ← (quoteSell pool cmd.side shares fee).mapError .amm
  let proceeds ← okOr (tryI64 (q.collateralOut + q.fee)) .overflow
  let relieved ← okOr (tryI64 ((position.cost * shares).tdiv position.shares)) .overflow
  let pnl ← okOr (tryI64 (q.collateralOut - relieved)) .overflow
  let realizedPnl ← okOr (tryI64 (position.realizedPnl + pnl)) .overflow
  let cost ← okOr (tryI64 (position.cost - relieved)) .overflow
  let avg ← avgPriceMicro proceeds shares
  pure { shares := shares, gross := proceeds, fee := q.fee
         avgPriceMicro := avg, poolAfter := q.poolAfter
         userDelta := q.collateralOut, escrowDelta := -proceeds, feeDelta := q.fee
         position := { position with
           shares := position.shares - shares, cost := cost, realizedPnl := realizedPnl }
         realizedDelta := some pnl }

def quoteLegs (cmd : PlaceTradeCmd) (pool : Pool) (outcome : OutcomeId)
    (held : Option PositionRow) (fee : Nat) : Except AppError QuotedLegs :=
  let position := held.getD (freshPosition cmd.user outcome)
  match cmd.action with
  | .buy => buyLegs cmd pool position fee
  | .sell => sellLegs cmd pool position fee

/-- What the legs of a trade on `side` do to the book: escrow and the pool move
together with the position, and the legs sum to zero. -/
structure Balanced (pool : Pool) (position : PositionRow) (side : Side) (legs : QuotedLegs) :
    Prop where
  valid : legs.poolAfter.Valid
  own : legs.poolAfter.reserve side + legs.position.shares =
    pool.reserve side + position.shares + legs.escrowDelta
  opposite : legs.poolAfter.reserve side.other = pool.reserve side.other + legs.escrowDelta
  shares_nonneg : 0 ≤ position.shares → 0 ≤ legs.position.shares
  user : legs.position.user = position.user
  outcome : legs.position.outcome = position.outcome
  zero_sum : legs.userDelta + legs.escrowDelta + legs.feeDelta = 0

variable {cmd : PlaceTradeCmd} {pool : Pool} {position : PositionRow} {fee : Nat}
  {legs : QuotedLegs}

theorem buyLegs_balanced (hv : pool.Valid) (h : buyLegs cmd pool position fee = .ok legs) :
    Balanced pool position cmd.side legs := by
  simp only [buyLegs, tryI64_eq_some, ok_iff] at h
  obtain ⟨q, hq, _, ⟨rfl, -⟩, _, ⟨rfl, -⟩, _, ⟨rfl, -⟩, rfl⟩ := h
  have hb := quoteBuy_spec hv hq
  have hown := hb.own
  have hpos := hb.out_pos
  refine ⟨hb.valid, ?_, hb.opposite, fun h0 => ?_, rfl, rfl, ?_⟩ <;> dsimp only <;> omega

theorem sellLegs_balanced (hv : pool.Valid) (h : sellLegs cmd pool position fee = .ok legs) :
    Balanced pool position cmd.side legs := by
  simp only [sellLegs, tryI64_eq_some, ok_iff] at h
  obtain ⟨_, hheld, q, hq, _, ⟨rfl, -⟩, _, ⟨rfl, -⟩, _, ⟨rfl, -⟩, _, ⟨rfl, -⟩, _, ⟨rfl, -⟩, _, -,
    rfl⟩ := h
  have hs := quoteSell_spec hv hq
  have hown := hs.own
  have hopp := hs.opposite
  refine ⟨hs.valid, ?_, ?_, fun h0 => ?_, rfl, rfl, ?_⟩ <;> dsimp only <;> omega

variable {held : Option PositionRow} {outcome : OutcomeId}

theorem quoteLegs_balanced (hv : pool.Valid) (h : quoteLegs cmd pool outcome held fee = .ok legs) :
    Balanced pool (held.getD (freshPosition cmd.user outcome)) cmd.side legs := by
  unfold quoteLegs at h
  cases ha : cmd.action with
  | buy => rw [ha] at h; exact buyLegs_balanced hv h
  | sell => rw [ha] at h; exact sellLegs_balanced hv h

/-- What the legs do to a position's books: what it cost beyond what it brought in moves
with the escrow and the fee, a sell realizes what it reports, and a position that is sold
out has no cost left. -/
structure Accounted (position : PositionRow) (legs : QuotedLegs) : Prop where
  outlay : legs.position.cost - legs.position.realizedPnl =
    position.cost - position.realizedPnl + legs.escrowDelta + legs.fee
  realized : legs.position.realizedPnl = position.realizedPnl + legs.realizedDelta.getD 0
  emptied : 0 ≤ position.shares → legs.position.shares = 0 → legs.position.cost = 0

theorem buyLegs_accounted (hv : pool.Valid) (h : buyLegs cmd pool position fee = .ok legs) :
    Accounted position legs := by
  simp only [buyLegs, tryI64_eq_some, ok_iff] at h
  obtain ⟨q, hq, _, ⟨rfl, -⟩, _, ⟨rfl, -⟩, _, ⟨rfl, -⟩, rfl⟩ := h
  have hpos := (quoteBuy_spec hv hq).out_pos
  refine ⟨?_, (add_zero _).symm, fun h0 hempty => ?_⟩ <;> dsimp only at * <;> omega

theorem sellLegs_accounted (h : sellLegs cmd pool position fee = .ok legs) :
    Accounted position legs := by
  simp only [sellLegs, tryI64_eq_some, ok_iff] at h
  obtain ⟨_, hheld, q, hq, _, ⟨rfl, -⟩, _, ⟨rfl, -⟩, _, ⟨rfl, -⟩, _, ⟨rfl, -⟩, _, ⟨rfl, -⟩, _, -,
    rfl⟩ := h
  refine ⟨?_, rfl, fun _ hempty => ?_⟩
  · dsimp only
    omega
  · -- the last share takes the whole cost with it
    have hall : cmd.amountMicro = position.shares := by dsimp only at hempty; omega
    have hne : position.shares ≠ 0 := by omega
    dsimp only
    rw [hall, Int.mul_tdiv_cancel _ hne, sub_self]

theorem quoteLegs_accounted (hv : pool.Valid) (h : quoteLegs cmd pool outcome held fee = .ok legs) :
    Accounted (held.getD (freshPosition cmd.user outcome)) legs := by
  unfold quoteLegs at h
  cases ha : cmd.action with
  | buy => rw [ha] at h; exact buyLegs_accounted hv h
  | sell => rw [ha] at h; exact sellLegs_accounted h

end Opinions.Trade
