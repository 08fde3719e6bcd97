import Opinions.Lib.Run
import Opinions.Trade.Frame
import Opinions.Trade.Seed

/-! Complete-set backing. Along every run that seeds markets, trades them, moves
their lifecycle and posts other money, the escrow of a market is its pool's
reserve of a side plus every user's position on that side, for both sides. -/

namespace Opinions.Trade

open Lib.Checked Lib.Result Lib.Rows Lib.Run Domain.Amm Domain.Ledger Domain.Market Config Model
open Opinions.Store

def IsEscrow (k : AccountKey) : Prop := ∃ m, k = cash (.marketEscrow m)

theorem not_isEscrow_ingress (user : UserId) : ∀ k ∈ ingressAccounts user, ¬IsEscrow k := by
  simp [ingressAccounts, IsEscrow, cash, credit]

/-- The shares of a market's side held by users. -/
def heldIn (positions : List PositionRow) (m : MarketId) (side : Side) : Int :=
  (positions.map fun p => if p.outcome = ⟨m, side⟩ then p.shares else 0).sum

variable {s s' : Store}

namespace Store

def held (s : Store) (m : MarketId) (side : Side) : Int := heldIn s.positions m side

def escrow (s : Store) (m : MarketId) : Int := s.ledger.balanceOf (cash (.marketEscrow m))

/-- Every seeded market is fully backed, and nothing is held of any other. -/
structure Backed (s : Store) : Prop where
  pools_nodup : (s.pools.map PoolRow.market).Nodup
  positions_nodup : (s.positions.map positionKey).Nodup
  pool_valid : ∀ p ∈ s.pools, p.pool.Valid
  shares_nonneg : ∀ p ∈ s.positions, 0 ≤ p.shares
  backed : ∀ p ∈ s.pools, ∀ side, s.escrow p.market = p.pool.reserve side + s.held p.market side
  unseeded : ∀ m, m ∉ s.pools.map PoolRow.market → s.escrow m = 0 ∧ ∀ side, s.held m side = 0
  holder_opened : ∀ p ∈ s.positions, s.ledger.Opened (cash (.user p.user))
  pool_opened : ∀ p ∈ s.pools, s.ledger.Opened (cash (.marketPool p.market))
  inRange : s.ledger.InRange

def empty : Store :=
  { ledger := Ledger.empty, markets := [], pools := [], positions := [], trades := []
    realizations := [], fingerprints := [] }

theorem backed_empty : empty.Backed where
  pools_nodup := List.nodup_nil
  positions_nodup := List.nodup_nil
  pool_valid := by simp [empty]
  shares_nonneg := by simp [empty]
  backed := by simp [empty]
  unseeded := fun m _ => ⟨rfl, fun _ => rfl⟩
  holder_opened := by simp [empty]
  pool_opened := by simp [empty]
  inRange := fun k => by change FitsI64 0; decide

/-- The part of the invariant that says nothing of the escrow: it also holds of a store
with settled markets. -/
structure Tabled (s : Store) : Prop where
  pools_nodup : (s.pools.map PoolRow.market).Nodup
  positions_nodup : (s.positions.map positionKey).Nodup
  pool_valid : ∀ p ∈ s.pools, p.pool.Valid
  shares_nonneg : ∀ p ∈ s.positions, 0 ≤ p.shares
  holder_opened : ∀ p ∈ s.positions, s.ledger.Opened (cash (.user p.user))
  pool_opened : ∀ p ∈ s.pools, s.ledger.Opened (cash (.marketPool p.market))
  inRange : s.ledger.InRange

theorem Backed.tabled (hs : s.Backed) : s.Tabled :=
  ⟨hs.pools_nodup, hs.positions_nodup, hs.pool_valid, hs.shares_nonneg, hs.holder_opened,
    hs.pool_opened, hs.inRange⟩

theorem Tabled.backed (ht : s.Tabled)
    (hback : ∀ p ∈ s.pools, ∀ side, s.escrow p.market = p.pool.reserve side + s.held p.market side)
    (hun : ∀ m, m ∉ s.pools.map PoolRow.market → s.escrow m = 0 ∧ ∀ side, s.held m side = 0) :
    s.Backed :=
  ⟨ht.pools_nodup, ht.positions_nodup, ht.pool_valid, ht.shares_nonneg, hback, hun,
    ht.holder_opened, ht.pool_opened, ht.inRange⟩

theorem Tabled.frame {keep : AccountKey → Prop} (hs : s.Tabled) (hl : Frame keep s.ledger s'.ledger)
    (hpools : s'.pools = s.pools) (hpos : s'.positions = s.positions) : s'.Tabled where
  pools_nodup := hpools ▸ hs.pools_nodup
  positions_nodup := hpos ▸ hs.positions_nodup
  pool_valid := hpools ▸ hs.pool_valid
  shares_nonneg := hpos ▸ hs.shares_nonneg
  holder_opened := by
    intro p hp
    rw [hpos] at hp
    exact hl.opened _ (hs.holder_opened p hp)
  pool_opened := by
    intro p hp
    rw [hpools] at hp
    exact hl.opened _ (hs.pool_opened p hp)
  inRange := hl.inRange hs.inRange

/-- A framed ledger change and a change of the other tables keep the backing. -/
theorem Backed.frame (hs : s.Backed) (hl : Frame IsEscrow s.ledger s'.ledger)
    (hpools : s'.pools = s.pools) (hpos : s'.positions = s.positions) : s'.Backed := by
  refine (hs.tabled.frame hl hpools hpos).backed ?_ ?_
  · intro p hp side
    rw [hpools] at hp
    rw [escrow, hl.kept _ ⟨p.market, rfl⟩, held, hpos]
    exact hs.backed p hp side
  · intro m hm
    rw [hpools] at hm
    rw [escrow, hl.kept _ ⟨m, rfl⟩]
    simp only [held, hpos]
    exact hs.unseeded m hm

end Store

theorem delta_tradeEntries (cmd : PlaceTradeCmd) (legs : QuotedLegs) (m : MarketId) :
    delta (tradeEntries cmd legs) (cash (.marketEscrow m)) =
      if cmd.market = m then legs.escrowDelta else 0 := by
  unfold tradeEntries
  split_ifs <;> simp_all [cash]

theorem heldIn_upsert {positions : List PositionRow} (hnd : (positions.map Store.positionKey).Nodup)
    (p : PositionRow) (m : MarketId) (side : Side) :
    heldIn (upsert Store.positionKey p positions) m side = heldIn positions m side +
      if p.outcome = ⟨m, side⟩ then
        p.shares - (find Store.positionKey (p.user, p.outcome) positions).elim 0 PositionRow.shares
      else 0 := by
  unfold heldIn
  rw [sum_upsert hnd, Store.positionKey]
  congr 1
  cases hf : find Store.positionKey (p.user, p.outcome) positions with
  | none => split_ifs <;> simp
  | some r =>
    have hkey : r.outcome = p.outcome := congrArg Prod.snd (key_of_find hf)
    dsimp only [Option.elim_some]
    rw [hkey]
    split_ifs <;> simp

theorem frame_openTradeAccounts (l : Ledger) (cmd : PlaceTradeCmd) (legs : QuotedLegs) :
    Frame IsEscrow l (openTradeAccounts l cmd legs) := by
  unfold openTradeAccounts
  dsimp only
  split_ifs
  · exact ((Frame.account l _).trans (Frame.account _ _)).trans (Frame.account _ _)
  · exact (Frame.account l _).trans (Frame.account _ _)

theorem opened_openTradeAccounts (l : Ledger) (cmd : PlaceTradeCmd) (legs : QuotedLegs) :
    (openTradeAccounts l cmd legs).Opened (cash (.user cmd.user)) := by
  have huser : (l.account (cash (.user cmd.user))).Opened (cash (.user cmd.user)) :=
    Ledger.opened_account _ _
  unfold openTradeAccounts
  dsimp only
  split_ifs
  · exact (huser.account _).account _
  · exact huser.account _

variable {cmd : PlaceTradeCmd} {fee : Nat} {legs : QuotedLegs}

/-- Who and what a quoted position is about, and the shares it started from. -/
theorem quoted_position {pool : Pool} (hv : pool.Valid)
    (h : quoteLegs cmd pool ⟨cmd.market, cmd.side⟩
      (s.position cmd.user ⟨cmd.market, cmd.side⟩) fee = .ok legs) :
    ∃ old : Int, Store.positionKey legs.position = (cmd.user, ⟨cmd.market, cmd.side⟩) ∧
      (s.position cmd.user ⟨cmd.market, cmd.side⟩).elim 0 PositionRow.shares = old ∧
      (0 ≤ old → 0 ≤ legs.position.shares) ∧
      legs.poolAfter.reserve cmd.side + legs.position.shares =
        pool.reserve cmd.side + old + legs.escrowDelta ∧
      legs.poolAfter.reserve cmd.side.other = pool.reserve cmd.side.other + legs.escrowDelta ∧
      legs.poolAfter.Valid := by
  have hb := quoteLegs_balanced hv h
  have huser := hb.user
  have houtcome := hb.outcome
  refine ⟨_, ?_, rfl, ?_⟩
  · cases hheld : s.position cmd.user ⟨cmd.market, cmd.side⟩ with
    | none =>
      rw [hheld] at huser houtcome
      exact Prod.ext huser houtcome
    | some r =>
      have hr : Store.positionKey r = (cmd.user, ⟨cmd.market, cmd.side⟩) := key_of_find hheld
      rw [hheld] at huser houtcome
      exact Prod.ext (huser.trans (Prod.mk.inj hr).1) (houtcome.trans (Prod.mk.inj hr).2)
  · have hown := hb.own
    have hnn := hb.shares_nonneg
    cases hheld : s.position cmd.user ⟨cmd.market, cmd.side⟩ with
    | none | some =>
      rw [hheld] at hown hnn
      exact ⟨hnn, hown, hb.opposite, hb.valid⟩

variable {receipt : TradeReceipt} {lp : LpFacts}

namespace Store

variable {pool : PoolRow} {facts : TradeFacts}

theorem Tabled.bookTrade (hs : s.Tabled) (hpool : s.pool cmd.market = some pool)
    (h : bookTrade facts cmd s pool fee = .ok (legs, s')) : s'.Tabled := by
  simp only [Trade.bookTrade, ok_iff] at h
  obtain ⟨legs, hlegs, ledger, hledger, _, -, rfl, rfl⟩ := h
  obtain ⟨old, hkey, hold, hnn, -, -, hvalid⟩ :=
    quoted_position (hs.pool_valid pool (mem_of_find hpool)) hlegs
  have happ := Ledger.ledgerApply_spec hledger
  have hopen := frame_openTradeAccounts s.ledger cmd legs
  have hold_nonneg : 0 ≤ old := by
    rw [← hold]
    cases hf : s.position cmd.user ⟨cmd.market, cmd.side⟩ with
    | none => exact le_rfl
    | some r => exact hs.shares_nonneg r (mem_of_find hf)
  refine ⟨?_, nodup_upsert hs.positions_nodup, ?_, ?_, ?_, ?_,
    happ.inRange (hopen.inRange hs.inRange)⟩
  · rw [map_key_update]
    · exact hs.pools_nodup
    · intro p
      rfl
  · intro p hp
    obtain ⟨r, hr, rfl⟩ := mem_update.1 hp
    split_ifs
    · exact hvalid
    · exact hs.pool_valid r hr
  · intro p hp
    rcases mem_of_mem_upsert hp with rfl | hp
    · exact hnn hold_nonneg
    · exact hs.shares_nonneg p hp
  · intro p hp
    rcases mem_of_mem_upsert hp with rfl | hp
    · rw [(Prod.mk.inj hkey).1]
      exact happ.opened (opened_openTradeAccounts s.ledger cmd legs)
    · exact happ.opened (hopen.opened _ (hs.holder_opened p hp))
  · intro p hp
    obtain ⟨r, hr, rfl⟩ := mem_update.1 hp
    have := happ.opened (hopen.opened _ (hs.pool_opened r hr))
    split_ifs <;> exact this

theorem Backed.bookTrade (hs : s.Backed) (hpool : s.pool cmd.market = some pool)
    (h : bookTrade facts cmd s pool fee = .ok (legs, s')) : s'.Backed := by
  have htabled := hs.tabled.bookTrade hpool h
  simp only [Trade.bookTrade, ok_iff] at h
  obtain ⟨legs, hlegs, ledger, hledger, _, -, rfl, rfl⟩ := h
  have hpm : pool.market = cmd.market := key_of_find hpool
  obtain ⟨old, hkey, hold, -, hown, hopp, -⟩ :=
    quoted_position (hs.pool_valid pool (mem_of_find hpool)) hlegs
  have happ := Ledger.ledgerApply_spec hledger
  have hopen := frame_openTradeAccounts s.ledger cmd legs
  -- what the trade does to an escrow and to a side's holdings
  have hescrow : ∀ m, ledger.balanceOf (cash (.marketEscrow m)) =
      s.escrow m + if cmd.market = m then legs.escrowDelta else 0 := by
    intro m
    rw [happ.balanceOf, delta_tradeEntries, hopen.kept _ ⟨m, rfl⟩]
    rfl
  have houtcome : legs.position.outcome = ⟨cmd.market, cmd.side⟩ := (Prod.mk.inj hkey).2
  have hheld : ∀ m side, heldIn (upsert positionKey legs.position s.positions) m side =
      s.held m side + if (⟨cmd.market, cmd.side⟩ : OutcomeId) = ⟨m, side⟩ then
        legs.position.shares - old else 0 := by
    intro m side
    rw [heldIn_upsert hs.positions_nodup, houtcome, (Prod.mk.inj hkey).1, ← hold]
    rfl
  refine htabled.backed ?_ ?_
  · intro p hp
    obtain ⟨r, hr, rfl⟩ := mem_update.1 hp
    by_cases hrm : r.market = cmd.market
    · obtain rfl : r = pool := by
        have := find_of_mem hs.pools_nodup hr
        rw [hrm] at this
        exact Option.mem_unique this hpool
      have hback := hs.backed r hr
      rw [if_pos hrm]
      dsimp only [Store.escrow, Store.held]
      simp only [hescrow, hheld, hrm]
      rw [hrm] at hback
      refine forall_side cmd.side ?_ ?_
      · have := hback cmd.side
        simp only [if_true]
        omega
      · have := hback cmd.side.other
        have hne : (⟨cmd.market, cmd.side⟩ : OutcomeId) ≠ ⟨cmd.market, cmd.side.other⟩ :=
          fun heq => cmd.side.other_ne (OutcomeId.mk.inj heq).2.symm
        rw [if_pos trivial, if_neg hne]
        omega
    · intro side
      have hne : (⟨cmd.market, cmd.side⟩ : OutcomeId) ≠ ⟨r.market, side⟩ :=
        fun heq => hrm (OutcomeId.mk.inj heq).1.symm
      rw [if_neg hrm]
      dsimp only [Store.escrow, Store.held]
      rw [hescrow, hheld, if_neg (Ne.symm hrm), if_neg hne, add_zero, add_zero]
      exact hs.backed r hr side
  · intro m hm
    have hmarkets : (update PoolRow.market cmd.market (fun p => { p with pool := legs.poolAfter })
        s.pools).map PoolRow.market = s.pools.map PoolRow.market := by
      refine map_key_update fun p => ?_
      rfl
    rw [hmarkets] at hm
    have hmne : cmd.market ≠ m := by
      rintro rfl
      exact hm (hpm ▸ List.mem_map_of_mem (mem_of_find hpool))
    dsimp only [Store.escrow, Store.held]
    rw [hescrow, if_neg hmne, add_zero]
    refine ⟨(hs.unseeded m hm).1, fun side => ?_⟩
    have hne : (⟨cmd.market, cmd.side⟩ : OutcomeId) ≠ ⟨m, side⟩ :=
      fun heq => hmne (OutcomeId.mk.inj heq).1
    rw [hheld, if_neg hne, add_zero]
    exact (hs.unseeded m hm).2 side

variable {rep : RepConfig}

theorem Tabled.placeTrade (hs : s.Tabled) (h : placeTrade rep facts cmd s = .ok (receipt, s')) :
    s'.Tabled := by
  rcases placeTrade_cases h with ⟨-, rfl⟩ | ⟨b, -⟩
  · exact hs
  · have hframe : ({ s with ledger := b.ledger } : Store).Tabled :=
      hs.frame (Frame.convertThenCollect (not_isEscrow_ingress cmd.user) b.converted) rfl rfl
    exact hframe.bookTrade (pool_of_priceTrade b.priced) b.booked

theorem Backed.placeTrade (hs : s.Backed) (h : placeTrade rep facts cmd s = .ok (receipt, s')) :
    s'.Backed := by
  rcases placeTrade_cases h with ⟨-, rfl⟩ | ⟨b, -⟩
  · exact hs
  · have hframe : ({ s with ledger := b.ledger } : Store).Backed :=
      hs.frame (Frame.convertThenCollect (not_isEscrow_ingress cmd.user) b.converted) rfl rfl
    exact hframe.bookTrade (pool_of_priceTrade b.priced) b.booked

structure TradeEffect (cmd : PlaceTradeCmd) (legs : QuotedLegs) (now : Instant) (s s' : Store) :
    Prop where
  live : ∃ row, s.market cmd.market = some row ∧ row.state = .live
  markets : s'.markets = s.markets
  seeded : ∀ m, (s'.pool m).map PoolRow.seeded = (s.pool m).map PoolRow.seeded
  escrow : ∀ m, s'.escrow m = s.escrow m + if cmd.market = m then legs.escrowDelta else 0
  booked : ∀ t ∈ s.ledger.txns, t ∈ s'.ledger.txns
  posted : cmd.idempotencyKey ∈ s'.ledger.txns.map LedgerTxn.key
  key : positionKey legs.position = (cmd.user, ⟨cmd.market, cmd.side⟩)
  positions : s'.positions = upsert positionKey legs.position s.positions
  accounted : Accounted ((s.position cmd.user ⟨cmd.market, cmd.side⟩).getD
    (freshPosition cmd.user ⟨cmd.market, cmd.side⟩)) legs
  trades : s'.trades = s.trades ++ [tradeRow cmd legs now]
  realizations : s'.realizations = s.realizations ++ realization cmd legs now

theorem live_of_gateMarket {now : Instant} {row : MarketRow} (h : gateMarket now row = .ok ()) :
    row.state = .live := by
  unfold gateMarket at h
  split at h
  · cases h
  · assumption
  · cases h

theorem live_of_priceTrade {version : Int}
    (h : priceTrade rep facts cmd s version = .ok (pool, fee)) :
    ∃ row, s.market cmd.market = some row ∧ row.state = .live := by
  simp only [priceTrade, ok_iff] at h
  obtain ⟨_, -, row, hrow, _, hgate, -⟩ := h
  exact ⟨row, hrow, live_of_gateMarket hgate⟩

theorem Tabled.effect (hs : s.Tabled) (b : Booked rep facts cmd s s') :
    TradeEffect cmd b.legs facts.now s s' := by
  obtain ⟨version, ledger, pool, fee, _, -, -, hconverted, hpriced, hbooked⟩ := b
  have hpool := pool_of_priceTrade hpriced
  have hframe := Frame.convertThenCollect (not_isEscrow_ingress cmd.user) hconverted
  have hlive := live_of_priceTrade hpriced
  simp only [Trade.bookTrade, ok_iff] at hbooked
  obtain ⟨legs, hlegs, posted, hposted, _, -, rfl, rfl⟩ := hbooked
  have hvalid := hs.pool_valid pool (mem_of_find hpool)
  obtain ⟨-, hkey, -⟩ := quoted_position hvalid hlegs
  have happ := Ledger.ledgerApply_spec hposted
  have hopen : Frame IsEscrow s.ledger (openTradeAccounts ledger cmd legs) :=
    hframe.trans (frame_openTradeAccounts ledger cmd legs)
  refine ⟨hlive, rfl, fun m => ?_, fun m => ?_, fun t ht => ?_, ?_, hkey, rfl,
    quoteLegs_accounted hvalid hlegs, rfl, rfl⟩
  · have hkept : ∀ p : PoolRow, PoolRow.market { p with pool := legs.poolAfter } = p.market :=
      fun _ => rfl
    dsimp only [Store.pool]
    by_cases hm : m = cmd.market
    · rw [hm, find_update_self hkept, Option.map_map]
      rfl
    · rw [find_update_of_ne hkept hm]
  · dsimp only [Store.escrow]
    rw [happ.balanceOf, delta_tradeEntries, hopen.kept _ ⟨m, rfl⟩]
  · rw [happ.txns]
    exact List.mem_append_left _ (hopen.booked t ht)
  · rw [happ.txns]
    simp

/-- A seed that was not a replay: the ledger it posted to and the market it opened. -/
structure Seeded (cmd : SeedMarketCmd) (s s' : Store) where
  ledger : Ledger
  state : MarketState
  positive : 0 < cmd.seed
  unlisted : cmd.marketId ∉ s.markets.map MarketRow.id
  fresh : cmd.marketId ∉ s.pools.map PoolRow.market
  valid : (⟨cmd.seed, cmd.seed, cmd.fee⟩ : Pool).Valid
  approved : transition .draft .approve = .ok state
  posted : (((s.ledger.account (cash (.marketPool cmd.marketId))).account
    (cash .house)).account (cash (.marketEscrow cmd.marketId))).ledgerApply .seed
    cmd.idempotencyKey
    [⟨cash .house, -cmd.seed⟩, ⟨cash (.marketEscrow cmd.marketId), cmd.seed⟩] = .ok ledger
  result : s' = { s with
    ledger := ledger
    markets := s.markets ++
      [{ id := cmd.marketId, slug := cmd.slug, state := state
         minVotesToResolve := cmd.minVotesToResolve, closesAt := cmd.closesAt
         tallyHiddenAt := cmd.tallyHiddenAt }]
    pools := s.pools ++ [{ market := cmd.marketId, pool := ⟨cmd.seed, cmd.seed, cmd.fee⟩
                           seeded := cmd.seed }] }

theorem seedMarket_cases {cmd : SeedMarketCmd} (h : seedMarket rep lp cmd s = .ok s') :
    s' = s ∨ Nonempty (Seeded cmd s s') := by
  simp only [Trade.seedMarket, ok_iff] at h
  obtain ⟨_, hpos, _, -, h⟩ := h
  cases hkey : seededMarketByKey s.ledger cmd.idempotencyKey with
  | some =>
    rw [hkey] at h
    exact Or.inl (pure_eq_ok.1 h).symm
  | none =>
    simp only [hkey, not_or, ok_iff] at h
    obtain ⟨_, -, _, ⟨hid, -⟩, _, hnew, ledger, hledger, pool, hpool, state, hstate, rfl⟩ := h
    obtain ⟨hvalid, rfl⟩ := Pool.new_valid hpool
    exact Or.inr ⟨⟨ledger, state, not_le.1 hpos, hid, hnew, hvalid, hstate, hledger, rfl⟩⟩

theorem Seeded.escrow {cmd : SeedMarketCmd} (b : Seeded cmd s s') (m : MarketId) :
    s'.escrow m = s.escrow m + if cmd.marketId = m then cmd.seed else 0 := by
  rw [b.result, Store.escrow, (Ledger.ledgerApply_spec b.posted).balanceOf]
  simp [cash, Store.escrow]

theorem Tabled.seeded {cmd : SeedMarketCmd} (hs : s.Tabled) (b : Seeded cmd s s') : s'.Tabled := by
  have happ := Ledger.ledgerApply_spec b.posted
  have hopen : Frame IsEscrow s.ledger
      (((s.ledger.account (cash (.marketPool cmd.marketId))).account
      (cash .house)).account (cash (.marketEscrow cmd.marketId))) :=
    ((Frame.account _ _).trans (Frame.account _ _)).trans (Frame.account _ _)
  have hpoolAcct : (s.ledger.account (cash (.marketPool cmd.marketId))).Opened
      (cash (.marketPool cmd.marketId)) :=
    Ledger.opened_account _ _
  rw [b.result]
  refine ⟨?_, hs.positions_nodup, ?_, hs.shares_nonneg, ?_, ?_,
    happ.inRange (hopen.inRange hs.inRange)⟩
  · rw [List.map_append, List.map_singleton]
    simpa using hs.pools_nodup.concat b.fresh
  · intro p hp
    rcases mem_concat.1 hp with hp | rfl
    · exact hs.pool_valid p hp
    · exact b.valid
  · exact fun p hp => happ.opened (hopen.opened _ (hs.holder_opened p hp))
  · intro p hp
    rcases mem_concat.1 hp with hp | rfl
    · exact happ.opened (hopen.opened _ (hs.pool_opened p hp))
    · exact happ.opened ((hpoolAcct.account _).account _)

theorem Backed.seedMarket {cmd : SeedMarketCmd} (hs : s.Backed)
    (h : seedMarket rep lp cmd s = .ok s') : s'.Backed := by
  rcases seedMarket_cases h with rfl | hb
  · exact hs
  · obtain ⟨b⟩ := hb
    have hescrow := b.escrow
    have hpools : s'.pools = s.pools ++ [⟨cmd.marketId, ⟨cmd.seed, cmd.seed, cmd.fee⟩, cmd.seed⟩] :=
      congrArg Store.pools b.result
    have hheld : ∀ m side, s'.held m side = s.held m side := fun m side => by rw [b.result]; rfl
    refine (hs.tabled.seeded b).backed ?_ ?_
    · intro p hp side
      rw [hpools] at hp
      rw [hescrow, hheld]
      rcases mem_concat.1 hp with hp | rfl
      · have hne : cmd.marketId ≠ p.market := fun heq => b.fresh (heq ▸ List.mem_map_of_mem hp)
        rw [if_neg hne, add_zero]
        exact hs.backed p hp side
      · obtain ⟨hzero, hnone⟩ := hs.unseeded cmd.marketId b.fresh
        rw [if_pos rfl, hzero, hnone side]
        cases side <;> simp [Pool.reserve]
    · intro m hm
      rw [hpools, List.map_append, List.map_singleton, mem_concat] at hm
      simp only [hescrow, hheld]
      rw [if_neg fun heq => hm (Or.inr heq.symm), add_zero]
      exact hs.unseeded m fun hmem => hm (Or.inl hmem)

end Store

/-- A seed, a trade, any lifecycle edge, or a posting of another use case. Only seeds,
trades and settlements post to an escrow account. -/
inductive Command
  | seed (rep : RepConfig) (lp : LpFacts) (cmd : SeedMarketCmd)
  | trade (rep : RepConfig) (facts : TradeFacts) (cmd : PlaceTradeCmd)
  | advance (market : MarketId) (event : MarketEvent)
  | post (kind : TxnKind) (key : String) (entries : List (Entry AccountKey))
      (no_escrow : ∀ e ∈ entries, ¬IsEscrow e.account)

def Store.step (s : Store) : Command → Except AppError Store
  | .seed rep lp cmd => seedMarket rep lp cmd s
  | .trade rep facts cmd => (placeTrade rep facts cmd s).map Prod.snd
  | .advance m event => do
    let row ← okOr (s.market m) (.store (.notFound "market"))
    let state ← (transition row.state event).mapError fun _ => AppError.illegalTransition
    pure { s with markets := update MarketRow.id m (fun r => { r with state := state }) s.markets }
  | .post kind key entries _ => do
    let ledger ← ((openAll s.ledger entries).ledgerApply kind key entries).mapError .store
    pure { s with ledger := ledger }

theorem Store.Backed.step {c : Command} (hs : s.Backed) (h : s.step c = .ok s') : s'.Backed := by
  cases c with
  | seed => exact hs.seedMarket h
  | trade rep facts cmd =>
    simp only [Store.step] at h
    cases hp : Trade.placeTrade rep facts cmd s with
    | error => simp [hp, Except.map] at h
    | ok r =>
      rw [hp] at h
      obtain rfl : r.2 = s' := Except.ok.inj h
      exact hs.placeTrade hp
  | advance =>
    simp only [Store.step, ok_iff] at h
    obtain ⟨_, -, _, -, rfl⟩ := h
    exact hs.frame (Frame.refl _) rfl rfl
  | post kind key entries hne =>
    simp only [Store.step, ok_iff] at h
    obtain ⟨ledger, hl, rfl⟩ := h
    exact hs.frame ((Frame.openAll _ _).trans (Frame.applied hl hne)) rfl rfl

theorem Store.backed_run (cmds : List Command) : (run Store.step Store.empty cmds).Backed :=
  run_preserves (fun _ _ _ _ hs h => hs.step h) Store.backed_empty

end Opinions.Trade
