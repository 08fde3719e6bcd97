import Opinions.Trade.Legs

/-! Booking a trade (`PlaceTrade::execute`, `application/src/place_trade.rs`). The
store holds the ledger, the markets with their pools, the positions, the trades
and the request fingerprints. What a trade reads from other tables (credit lots,
receivables, gates, the vote, the reputation tier) and from the config is an input
of the call, so every result holds whatever those say. -/

namespace Opinions.Trade

open Lib.Checked Lib.Result Lib.Rows Domain.Amm Domain.FeePolicy Domain.Ledger Domain.Market Config
open Model Opinions.Store

/-- Instants are nanoseconds on one clock. -/
abbrev Instant := Int

structure MarketRow where
  id : MarketId
  slug : String
  state : MarketState
  minVotesToResolve : Int
  closesAt : Instant
  tallyHiddenAt : Instant

structure PoolRow where
  market : MarketId
  pool : Pool
  seeded : Int
  deriving DecidableEq

/-- The canonical request fingerprint, by its parts. -/
structure TradeFingerprint where
  market : MarketId
  user : UserId
  side : Side
  action : TradeAction
  amountMicro : Int
  expectedConfigVersion : Option Int
  deriving DecidableEq

def tradeFingerprint (cmd : PlaceTradeCmd) : TradeFingerprint :=
  { market := cmd.market, user := cmd.user, side := cmd.side, action := cmd.action
    amountMicro := cmd.amountMicro, expectedConfigVersion := cmd.expectedConfigVersion }

structure TradeRow where
  ledgerKey : String
  user : UserId
  outcome : OutcomeId
  action : TradeAction
  shares : Int
  gross : Int
  fee : Int
  createdAt : Instant

structure RealizationFact where
  ledgerKey : String
  user : UserId
  outcome : OutcomeId
  realizedDelta : Int
  payout : Int
  createdAt : Instant

structure TradeReceipt where
  ledgerKey : String
  side : Side
  action : TradeAction
  shares : Int
  gross : Int
  fee : Int
  avgPriceMicro : Int
  replayed : Bool

structure Store where
  ledger : Ledger
  markets : List MarketRow
  pools : List PoolRow
  positions : List PositionRow
  trades : List TradeRow
  realizations : List RealizationFact
  fingerprints : List (String × TradeFingerprint)

/-- A credit lot of the user, and whether its allocations let it convert. -/
structure LotFact where
  id : String
  amountMicro : Int
  ready : Bool

/-- The config values one trade reads, in the order it reads them. -/
structure ConfigReads where
  feeOverride : Option Value
  tradingPaused : Option Value
  marketPaused : Option Value
  votingPaused : Option Value
  currentGeneration : Int
  changes : Option (List ConfigChange)

structure TradeFacts where
  now : Instant
  lots : List LotFact
  receivables : List Int
  gate : Except AppError Unit
  tier : Nat
  voted : Bool
  config : ConfigReads
  allocation : Except AppError Unit

def credit (owner : OwnerRef) : AccountKey := { owner := owner, currency := .usdcCredit }

def convertLot (user : UserId) (l : Ledger) (lot : LotFact) : Except AppError Ledger :=
  let convertKey := "credit-convert:" ++ lot.id
  let payKey := "credit-convert-pay:" ++ lot.id
  match (l.txnByKey convertKey).isSome, (l.txnByKey payKey).isSome with
  | true, true => .ok l
  | false, false =>
    if lot.ready then do
      let opened := (((l.account (credit (.user user))).account (credit .house)).account
        (cash .bonusReserve)).account (cash (.user user))
      let retired ← (opened.ledgerApply .creditConvert convertKey
        [⟨credit (.user user), -lot.amountMicro⟩, ⟨credit .house, lot.amountMicro⟩]).mapError
        AppError.store
      (retired.ledgerApply .creditConvert payKey
        [⟨cash .bonusReserve, -lot.amountMicro⟩, ⟨cash (.user user), lot.amountMicro⟩]).mapError
        AppError.store
    else .ok l
  | _, _ => .error (.store (.invariant "credit conversion has only one ledger transaction"))

/-- Take `min(cash, owed)` from the user for open receivables. -/
def autoCollect (l : Ledger) (user : UserId) (key : String) (receivables : List Int) :
    Except AppError Ledger := do
  let owed ← receivables.foldlM (fun sum r => okOr (tryI64 (sum + r)) AppError.overflow) 0
  if owed = 0 then pure l
  else
    let l := l.account (cash (.user user))
    let collect := min owed (max (l.balanceOf (cash (.user user))) 0)
    if collect = 0 then pure l
    else
      ((l.account (cash .house)).ledgerApply .reversal ("recv-collect:" ++ key)
        [⟨cash (.user user), -collect⟩, ⟨cash .house, collect⟩]).mapError .store

def convertThenCollect (l : Ledger) (user : UserId) (key : String) (lots : List LotFact)
    (receivables : List Int) : Except AppError Ledger := do
  let converted ← lots.foldlM (convertLot user) l
  autoCollect converted user key receivables

namespace Store

def market (s : Store) (m : MarketId) : Option MarketRow := find MarketRow.id m s.markets

def pool (s : Store) (m : MarketId) : Option PoolRow := find PoolRow.market m s.pools

def positionKey (p : PositionRow) : UserId × OutcomeId := (p.user, p.outcome)

def position (s : Store) (user : UserId) (outcome : OutcomeId) : Option PositionRow :=
  find positionKey (user, outcome) s.positions

/-- The user's cost over both outcomes of a market. -/
def marketPositionCost (s : Store) (user : UserId) (m : MarketId) : Int :=
  (s.positions.map fun p => if p.user = user ∧ p.outcome.market = m then p.cost else 0).sum

def lastBuyAt (s : Store) (user : UserId) (outcome : OutcomeId) : Option Instant :=
  ((s.trades.filter fun t => t.user = user ∧ t.outcome = outcome ∧ t.action = .buy).map
    TradeRow.createdAt).max?

end Store

/-- Only a live market before its hidden window trades. -/
def gateMarket (now : Instant) (market : MarketRow) : Except AppError Unit :=
  match market.state with
  | .closing => .error .tradingFrozen
  | .live => refuse (market.tallyHiddenAt ≤ now) .tradingFrozen
  | _ => .error .marketNotOpen

/-- A sell inside the process's flip window after the user's last buy. -/
def isFlip (rep : RepConfig) (now : Instant) (action : TradeAction) (lastBuyAt : Option Instant) :
    Bool :=
  action = .sell ∧ rep.discountFlipWindowSecs ≠ 0 ∧
    ∃ last ∈ lastBuyAt,
      now - last < (min rep.discountFlipWindowSecs 9223372036854775807 : Nat) * 1000000000

/-- The fee of a trade from the process policy, the override read and the pool's
stamped fee. -/
def tradeFee (rep : RepConfig) (tier : Nat) (feeOverride : FeeBpsOverride) (poolFee : Nat)
    (flip : Bool) : Nat :=
  effectiveFee { baseBps := feeOverride.baseBps poolFee, tier := tier
                 discountBpByTier := rep.feeDiscountBpByTier, minFeeBps := rep.minFeeBps
                 isFlipWithinWindow := flip }

/-- A buy may not take the user's cost in the market past the tier's cap. -/
def gateCap (rep : RepConfig) (tier : Nat) (cost : Int) (cmd : PlaceTradeCmd) :
    Except AppError Unit :=
  match cmd.action with
  | .sell => .ok ()
  | .buy => do
    let cap := rep.positionCapMicroByTier.get (tierIndex tier)
    let projected ← okOr (tryI64 (cost + cmd.amountMicro)) .overflow
    refuse (cap < projected) (.positionCapExceeded cap tier)

/-- The fence point: pause flags, then staleness of the previewed version. -/
def gateFence (config : ConfigReads) (version : Int) (ctx : StalenessContext) :
    Except AppError Unit := do
  refuse (pauseInForce config.tradingPaused ∨ pauseInForce config.marketPaused) .tradingPaused
  refuse (pauseInForce config.votingPaused) .votingPaused
  let stale : Bool := match config.changes with
    | none => true
    | some changes => previewRelevantDrift changes ctx
  refuse stale (.staleConfig version config.currentGeneration)

/-- The whole-second age of the last buy, rounded toward zero. -/
def secsSince (now : Instant) (last : Option Instant) : Option Int :=
  last.map fun t => (now - t).tdiv 1000000000

/-- Every check between the replay guard and the quote; the result is the fee the
trade pays. -/
def priceTrade (rep : RepConfig) (facts : TradeFacts) (cmd : PlaceTradeCmd) (s : Store)
    (version : Int) : Except AppError (PoolRow × Nat) := do
  facts.gate
  let market ← okOr (s.market cmd.market) (.store (.notFound "market"))
  gateMarket facts.now market
  refuse (facts.voted = false) .voteRequired
  let pool ← okOr (s.pool cmd.market) (.store (.notFound "pool"))
  let lastBuyAt := s.lastBuyAt cmd.user ⟨cmd.market, cmd.side⟩
  let flip := isFlip rep facts.now cmd.action lastBuyAt
  let feeOverride ← okOr (FeeBpsOverride.parse facts.config.feeOverride)
    (.store (.invariant "invalid fee override"))
  let fee := tradeFee rep facts.tier feeOverride pool.pool.fee flip
  gateCap rep facts.tier (s.marketPositionCost cmd.user cmd.market) cmd
  gateFence facts.config version
    { userTier := facts.tier, poolFeeBps := pool.pool.fee, activeFeeOverride := feeOverride
      rep := rep, action := cmd.action, secsSinceLastBuy := secsSince facts.now lastBuyAt
      market := some cmd.market }
  pure (pool, fee)

/-- The ledger legs; a zero fee leg is left out. -/
def tradeEntries (cmd : PlaceTradeCmd) (legs : QuotedLegs) : List (Entry AccountKey) :=
  ⟨cash (.user cmd.user), legs.userDelta⟩ :: ⟨cash (.marketEscrow cmd.market), legs.escrowDelta⟩ ::
    if legs.feeDelta ≠ 0 then [⟨cash .fees, legs.feeDelta⟩] else []

def openTradeAccounts (l : Ledger) (cmd : PlaceTradeCmd) (legs : QuotedLegs) : Ledger :=
  let l := (l.account (cash (.user cmd.user))).account (cash (.marketEscrow cmd.market))
  if legs.feeDelta ≠ 0 then l.account (cash .fees) else l

def tradeRow (cmd : PlaceTradeCmd) (legs : QuotedLegs) (now : Instant) : TradeRow :=
  { ledgerKey := cmd.idempotencyKey, user := cmd.user, outcome := ⟨cmd.market, cmd.side⟩
    action := cmd.action, shares := legs.shares, gross := legs.gross, fee := legs.fee
    createdAt := now }

def realization (cmd : PlaceTradeCmd) (legs : QuotedLegs) (now : Instant) : List RealizationFact :=
  match legs.realizedDelta with
  | none => []
  | some delta =>
    [{ ledgerKey := cmd.idempotencyKey, user := cmd.user, outcome := ⟨cmd.market, cmd.side⟩
       realizedDelta := delta, payout := legs.userDelta, createdAt := now }]

/-- A charged fee is allocated to the user's credit lots. -/
def allocateFee (facts : TradeFacts) (fee : Int) : Except AppError Unit :=
  if 0 < fee then facts.allocation else .ok ()

/-- Quote, post the legs and save the pool, the position and the trade. -/
def bookTrade (facts : TradeFacts) (cmd : PlaceTradeCmd) (s : Store) (pool : PoolRow) (fee : Nat) :
    Except AppError (QuotedLegs × Store) := do
  let outcome : OutcomeId := ⟨cmd.market, cmd.side⟩
  let legs ← quoteLegs cmd pool.pool outcome (s.position cmd.user outcome) fee
  let ledger ← ((openTradeAccounts s.ledger cmd legs).ledgerApply .trade cmd.idempotencyKey
    (tradeEntries cmd legs)).mapError .store
  allocateFee facts legs.fee
  pure (legs, { s with
    ledger := ledger
    pools := update PoolRow.market cmd.market (fun p => { p with pool := legs.poolAfter }) s.pools
    positions := upsert Store.positionKey legs.position s.positions
    trades := s.trades ++ [tradeRow cmd legs facts.now]
    realizations := s.realizations ++ realization cmd legs facts.now
    fingerprints := s.fingerprints ++ [(cmd.idempotencyKey, tradeFingerprint cmd)] })

def receiptOf (cmd : PlaceTradeCmd) (legs : QuotedLegs) : TradeReceipt :=
  { ledgerKey := cmd.idempotencyKey, side := cmd.side, action := cmd.action
    shares := legs.shares, gross := legs.gross, fee := legs.fee
    avgPriceMicro := legs.avgPriceMicro, replayed := false }

/-- A key that is booked already: the fingerprint must match, and the stored trade
is the answer. -/
def replayTrade (cmd : PlaceTradeCmd) (s : Store) : Except AppError TradeReceipt := do
  let stored := find Prod.fst cmd.idempotencyKey s.fingerprints
  refuse (∃ p ∈ stored, p.2 ≠ tradeFingerprint cmd) .idempotencyConflict
  let t ← okOr (find TradeRow.ledgerKey cmd.idempotencyKey s.trades)
    (.store (.invariant "idempotency key exists without a trade row"))
  let avg ← avgPriceMicro t.gross t.shares
  pure { ledgerKey := t.ledgerKey, side := t.outcome.side, action := t.action
         shares := t.shares, gross := t.gross, fee := t.fee, avgPriceMicro := avg
         replayed := true }

/-- `PlaceTrade::execute`: one transaction, so an error leaves the store as it was. -/
def placeTrade (rep : RepConfig) (facts : TradeFacts) (cmd : PlaceTradeCmd) (s : Store) :
    Except AppError (TradeReceipt × Store) := do
  let version ← okOr cmd.expectedConfigVersion .expectedConfigVersionRequired
  match s.ledger.txnByKey cmd.idempotencyKey with
  | some _ => do
    let receipt ← replayTrade cmd s
    pure (receipt, s)
  | none => do
    let ledger ← convertThenCollect s.ledger cmd.user cmd.idempotencyKey facts.lots
      facts.receivables
    let (pool, fee) ← priceTrade rep facts cmd { s with ledger := ledger } version
    let (legs, s') ← bookTrade facts cmd { s with ledger := ledger } pool fee
    pure (receiptOf cmd legs, s')

/-- A trade that was not a replay: what it priced and what it booked. -/
structure Booked (rep : RepConfig) (facts : TradeFacts) (cmd : PlaceTradeCmd) (s s' : Store) where
  version : Int
  ledger : Ledger
  pool : PoolRow
  fee : Nat
  legs : QuotedLegs
  expected : cmd.expectedConfigVersion = some version
  fresh : s.ledger.txnByKey cmd.idempotencyKey = none
  converted : convertThenCollect s.ledger cmd.user cmd.idempotencyKey facts.lots
    facts.receivables = .ok ledger
  priced : priceTrade rep facts cmd { s with ledger := ledger } version = .ok (pool, fee)
  booked : bookTrade facts cmd { s with ledger := ledger } pool fee = .ok (legs, s')

variable {cmd : PlaceTradeCmd} {facts : TradeFacts} {rep : RepConfig} {s : Store}

theorem placeTrade_cases {s' : Store} {receipt : TradeReceipt}
    (h : placeTrade rep facts cmd s = .ok (receipt, s')) :
    (receipt.replayed = true ∧ s' = s) ∨
      ∃ b : Booked rep facts cmd s s', receipt = receiptOf cmd b.legs := by
  simp only [placeTrade, ok_iff] at h
  obtain ⟨version, hversion, h⟩ := h
  cases hkey : s.ledger.txnByKey cmd.idempotencyKey with
  | some =>
    simp only [hkey, ok_iff] at h
    obtain ⟨r, hr, rfl, rfl⟩ := h
    simp only [replayTrade, ok_iff] at hr
    obtain ⟨_, _, _, _, _, _, rfl⟩ := hr
    exact Or.inl ⟨rfl, rfl⟩
  | none =>
    simp only [hkey, ok_iff] at h
    obtain ⟨ledger, hconv, ⟨pool, fee⟩, hprice, ⟨legs, _⟩, hbook, rfl, rfl⟩ := h
    exact Or.inr ⟨⟨version, ledger, pool, fee, legs, hversion, hkey, hconv, hprice, hbook⟩, rfl⟩

theorem pool_of_priceTrade {version : Int} {pool : PoolRow} {fee : Nat}
    (h : priceTrade rep facts cmd s version = .ok (pool, fee)) : s.pool cmd.market = some pool := by
  simp only [priceTrade, ok_iff] at h
  obtain ⟨_, _, _, _, _, _, _, _, p, hp, _, _, _, _, _, _, rfl, _⟩ := h
  exact hp

end Opinions.Trade
