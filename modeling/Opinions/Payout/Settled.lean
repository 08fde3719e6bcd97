import Opinions.Payout.Ledger

/-! What a payout writes. Read backwards, a payout that succeeded is the settlement of the
listed holdings, one ledger transaction, and a pass over the holdings that closes every
open position: what a position cost beyond what it brought in falls by exactly its payout,
and the realized profit moves with the realization facts. -/

namespace Opinions.Payout

open Lib.Checked Lib.Result Lib.Rows Domain.Ledger Domain.Market Domain.Resolution Model Store Trade
open Resolve Credit

/-- A figure of the positions whose owner and outcome are of interest, added up. -/
def totalOver (P : UserId × OutcomeId → Bool) (g : PositionRow → Int)
    (positions : List PositionRow) : Int :=
  (positions.map fun p => if P (Store.positionKey p) then g p else 0).sum

theorem totalOver_upsert {positions : List PositionRow}
    (hnd : (positions.map Store.positionKey).Nodup) (P : UserId × OutcomeId → Bool)
    (g : PositionRow → Int) (p : PositionRow) :
    totalOver P g (upsert Store.positionKey p positions) = totalOver P g positions +
      if P (Store.positionKey p) then
        g p - (find Store.positionKey (Store.positionKey p) positions).elim 0 g
      else 0 := by
  unfold totalOver
  rw [sum_upsert hnd]
  congr 1
  cases hf : find Store.positionKey (Store.positionKey p) positions with
  | none => split_ifs <;> simp
  | some =>
    have hkey := key_of_find hf
    dsimp only [Option.elim_some]
    rw [hkey]
    split_ifs <;> simp

def inMarket (m : MarketId) (k : UserId × OutcomeId) : Bool := k.2.market = m

def ofUser (user : UserId) (m : MarketId) (k : UserId × OutcomeId) : Bool :=
  k.1 = user ∧ k.2.market = m

/-- What a position cost beyond what it brought in. -/
def outlay (p : PositionRow) : Int := p.cost - p.realizedPnl

/-- The realization facts of a user in a market, added up. -/
def factsOf (user : UserId) (m : MarketId) (facts : List RealizationFact) : Int :=
  (facts.map fun f => if f.user = user ∧ f.outcome.market = m then f.realizedDelta else 0).sum

theorem factsOf_append (user : UserId) (m : MarketId) (xs ys : List RealizationFact) :
    factsOf user m (xs ++ ys) = factsOf user m xs + factsOf user m ys := by
  simp [factsOf]

def closePosition (payout : Int) (p : PositionRow) : PositionRow :=
  { p with shares := 0, cost := 0, realizedPnl := p.realizedPnl + (payout - p.cost) }

structure Closed (m : MarketId) (settledAt : Instant) (line : HoldingLine AccountKey)
    (payout : Int) (user : UserId) (position : PositionRow) (s s' : Store) : Prop where
  found : find Store.positionKey (user, ⟨m, line.side⟩) s.positions = some position
  result : s' = { s with
    positions := upsert Store.positionKey (closePosition payout position) s.positions
    realizations := s.realizations ++
      [{ ledgerKey := resolveKey m, user := user, outcome := ⟨m, line.side⟩
         realizedDelta := payout - position.cost, payout := payout, createdAt := settledAt }] }

variable {acc acc' : Store × Int} {m : MarketId} {settledAt : Instant}

theorem settleHolding_cases {paid : HoldingLine AccountKey × Int}
    (h : settleHolding m settledAt acc paid = .ok acc') :
    (holder paid.1 = .pool ∧ acc' = (acc.1, acc.2 + paid.2)) ∨
      ∃ user position, holder paid.1 = .user user ∧ acc'.2 = acc.2 ∧
        Closed m settledAt paid.1 paid.2 user position acc.1 acc'.1 := by
  unfold settleHolding at h
  split at h
  · simp only [tryI64_eq_some, ok_iff] at h
    obtain ⟨_, ⟨rfl, -⟩, rfl⟩ := h
    exact Or.inl ⟨‹_›, rfl⟩
  · simp only [tryI64_eq_some, ok_iff] at h
    obtain ⟨position, hfound, _, ⟨rfl, -⟩, _, ⟨rfl, -⟩, rfl⟩ := h
    exact Or.inr ⟨_, position, ‹_›, rfl, hfound, rfl⟩

variable {line : HoldingLine AccountKey} {payout : Int} {position : PositionRow} {s s' : Store}
  {user : UserId}

namespace Closed

theorem key (c : Closed m settledAt line payout user position s s') :
    Store.positionKey position = (user, ⟨m, line.side⟩) := key_of_find c.found

theorem total (c : Closed m settledAt line payout user position s s')
    (hnd : (s.positions.map Store.positionKey).Nodup) (P : UserId × OutcomeId → Bool)
    (g : PositionRow → Int) :
    totalOver P g s'.positions = totalOver P g s.positions +
      if P (user, ⟨m, line.side⟩) then g (closePosition payout position) - g position else 0 := by
  have hkey : Store.positionKey (closePosition payout position) = (user, ⟨m, line.side⟩) := c.key
  rw [c.result, totalOver_upsert hnd, hkey, c.found]
  rfl

end Closed

def userPayouts (paid : List (HoldingLine AccountKey × Int)) : Int :=
  (paid.map fun p => match holder p.1 with
    | .user _ => p.2
    | .pool => 0).sum

/-- What settling some holdings does to the store and the pool's payout. -/
structure Pass (m : MarketId) (paid : List (HoldingLine AccountKey × Int)) (acc acc' : Store × Int) :
    Prop where
  kept : acc'.1 = { acc.1 with positions := acc'.1.positions, realizations := acc'.1.realizations }
  pool : acc'.2 + userPayouts paid = acc.2 + (paid.map Prod.snd).sum
  tabled : acc'.1.Tabled
  outlay : totalOver (inMarket m) outlay acc'.1.positions =
    totalOver (inMarket m) outlay acc.1.positions - userPayouts paid
  elsewhere : ∀ m', m' ≠ m → ∀ g, totalOver (inMarket m') g acc'.1.positions =
    totalOver (inMarket m') g acc.1.positions
  realized : ∀ user m', totalOver (ofUser user m') PositionRow.realizedPnl acc'.1.positions +
      factsOf user m' acc.1.realizations =
    totalOver (ofUser user m') PositionRow.realizedPnl acc.1.positions +
      factsOf user m' acc'.1.realizations
  closed : ∀ p ∈ acc'.1.positions, p.shares = 0 ∧ p.cost = 0 ∨ p ∈ acc.1.positions ∧
    ∀ q ∈ paid, ∀ user, holder q.1 = .user user → Store.positionKey p ≠ (user, ⟨m, q.1.side⟩)
  facts : ∀ f ∈ acc'.1.realizations, f ∈ acc.1.realizations ∨ f.ledgerKey = resolveKey m

theorem Pass.refl (ht : acc.1.Tabled) : Pass m [] acc acc where
  kept := rfl
  pool := by simp [userPayouts]
  tabled := ht
  outlay := by simp [userPayouts]
  elsewhere := fun _ _ _ => rfl
  realized := fun _ _ => rfl
  closed := fun p hp => Or.inr ⟨hp, by simp⟩
  facts := fun _ hf => Or.inl hf

theorem Pass.trans {xs ys : List (HoldingLine AccountKey × Int)} {acc'' : Store × Int}
    (h : Pass m xs acc acc') (h' : Pass m ys acc' acc'') :
    Pass m (xs ++ ys) acc acc'' where
  kept := by rw [h'.kept, h.kept]
  pool := by
    have h₁ := h.pool
    have h₂ := h'.pool
    simp only [userPayouts, List.map_append, List.sum_append] at h₁ h₂ ⊢
    omega
  tabled := h'.tabled
  outlay := by
    rw [h'.outlay, h.outlay]
    simp only [userPayouts, List.map_append, List.sum_append]
    omega
  elsewhere := fun m' hne g => (h'.elsewhere m' hne g).trans (h.elsewhere m' hne g)
  realized := fun user m' => by
    have h₁ := h.realized user m'
    have h₂ := h'.realized user m'
    omega
  closed := by
    intro p hp
    rcases h'.closed p hp with hzero | ⟨hp', hys⟩
    · exact Or.inl hzero
    · refine (h.closed p hp').imp id fun ⟨hp'', hxs⟩ => ⟨hp'', fun q hq => ?_⟩
      rcases List.mem_append.1 hq with hq | hq
      · exact hxs q hq
      · exact hys q hq
  facts := fun f hf => (h'.facts f hf).elim (h.facts f) Or.inr

theorem Closed.pass {poolPayout : Int} (ht : s.Tabled) (hline : holder line = .user user)
    (c : Closed m settledAt line payout user position s s') :
    Pass m [(line, payout)] (s, poolPayout) (s', poolPayout) := by
  have hmem := mem_of_find c.found
  have hkey : Store.positionKey (closePosition payout position) = (user, ⟨m, line.side⟩) := c.key
  have hpaid : userPayouts [(line, payout)] = payout := by simp [userPayouts, hline]
  have hin : inMarket m (user, ⟨m, line.side⟩) = true := by simp [inMarket]
  refine ⟨by rw [c.result], by simp [hpaid], ?_, ?_, ?_, ?_, ?_, ?_⟩
  · rw [c.result]
    refine ⟨ht.pools_nodup, nodup_upsert ht.positions_nodup, ht.pool_valid, ?_, ?_,
      ht.pool_opened, ht.inRange⟩
    · intro p hp
      rcases mem_of_mem_upsert hp with rfl | hp
      · exact le_rfl
      · exact ht.shares_nonneg p hp
    · intro p hp
      rcases mem_of_mem_upsert hp with rfl | hp
      · exact ht.holder_opened position hmem
      · exact ht.holder_opened p hp
  · dsimp only
    rw [c.total ht.positions_nodup, if_pos hin, hpaid]
    simp only [Payout.outlay, closePosition]
    omega
  · intro m' hne g
    have hout : ¬inMarket m' (user, ⟨m, line.side⟩) = true := by simpa [inMarket] using hne.symm
    dsimp only
    rw [c.total ht.positions_nodup, if_neg hout, add_zero]
  · intro user' m'
    dsimp only
    rw [c.total ht.positions_nodup, c.result, factsOf_append]
    simp only [factsOf, ofUser, closePosition, List.map_cons, List.map_nil, List.sum_singleton,
      decide_eq_true_eq]
    split_ifs <;> omega
  · intro p hp
    dsimp only at hp ⊢
    rw [c.result] at hp
    by_cases hpk : Store.positionKey p = Store.positionKey (closePosition payout position)
    · rw [eq_of_mem_upsert hp hpk]
      exact Or.inl ⟨rfl, rfl⟩
    · rcases mem_of_mem_upsert hp with rfl | hp
      · exact absurd rfl hpk
      · refine Or.inr ⟨hp, fun q hq user' huser' => ?_⟩
        obtain rfl := List.mem_singleton.1 hq
        obtain rfl := HoldingOwner.user.inj (hline.symm.trans huser')
        exact hkey ▸ hpk
  · intro f hf
    dsimp only at hf ⊢
    rw [c.result] at hf
    refine (List.mem_append.1 hf).imp_right fun hf => ?_
    rw [List.mem_singleton.1 hf]

theorem foldlM_settleHolding {paid : List (HoldingLine AccountKey × Int)} (ht : acc.1.Tabled)
    (h : paid.foldlM (settleHolding m settledAt) acc = .ok acc') : Pass m paid acc acc' := by
  induction paid generalizing acc with
  | nil =>
    rw [List.foldlM_nil, pure_eq_ok] at h
    exact h ▸ Pass.refl ht
  | cons p paid ih =>
    rw [List.foldlM_cons, bind_eq_ok] at h
    obtain ⟨mid, hmid, hrest⟩ := h
    have hone : Pass m [p] acc mid := by
      rcases settleHolding_cases hmid with ⟨hpool, rfl⟩ | ⟨user, position, huser, hsame, c⟩
      · have hnone : userPayouts [p] = 0 := by simp [userPayouts, hpool]
        refine ⟨rfl, by simp [hnone], ht, by simp [hnone], fun _ _ _ => rfl, fun _ _ => rfl,
          fun q hq => Or.inr ⟨hq, fun q hq user huser => ?_⟩, fun _ hf => Or.inl hf⟩
        obtain rfl := List.mem_singleton.1 hq
        rw [hpool] at huser
        cases huser
      · rw [show mid = (mid.1, acc.2) from Prod.ext rfl hsame]
        exact c.pass ht huser
    exact hone.trans (ih hone.tabled hrest)

/-- A payout that was made: what it decided, settled, posted and wrote. -/
structure PaidOut (cfg : ResolveConfig) (facts : ResolveFacts) (market : MarketRow)
    (entered : MarketState) (escrow : Int) (curatorOverride : Option CuratorDecision)
    (b : Book) (r : ResolveReceipt) (b' : Book) where
  voided : Bool
  finalBps : Nat
  holdings : List (HoldingLine AccountKey)
  st : Settlement AccountKey
  entries : List (Entry AccountKey)
  posted : Ledger
  collected : Ledger
  store : Store
  poolPayout : Int
  pool : PoolRow
  state : MarketState
  ledger : Ledger
  decided : decision cfg b market curatorOverride = .ok (voided, finalBps)
  held : b.store.holdings market.id = .ok holdings
  settled : settleMarket (listHoldings facts.accountId holdings) finalBps escrow = .ok st
  legs : settlementEntries (cash (.marketEscrow market.id)) (cash .fees) st = .ok entries
  posts : ((b.store.ledger.account (cash (.marketEscrow market.id))).account
    (cash .fees)).ledgerApply .payout (resolveKey market.id) entries = .ok posted
  collects : collectPayouts (creditResolve facts b market.id
    ((listHoldings facts.accountId holdings).zip (st.payouts.map Prod.snd)) st.dust voided)
    posted = .ok collected
  passed : ((listHoldings facts.accountId holdings).zip (st.payouts.map Prod.snd)).foldlM
    (settleHolding market.id facts.settledAt) ({ b.store with ledger := collected }, 0) =
    .ok (store, poolPayout)
  pooled : store.pool market.id = some pool
  final : finalState entered curatorOverride voided = .ok state
  finalized : finalizeCredits facts (creditResolve facts b market.id
    ((listHoldings facts.accountId holdings).zip (st.payouts.map Prod.snd)) st.dust voided)
    store.ledger = .ok ledger
  receipt : r = ⟨market.id, if voided then .voided else .settled, some finalBps, false⟩
  result : b' = (({ b with store := { store with ledger := ledger } }).setMarketState market.id
    state).setColumn (paidColumns facts b market.id curatorOverride escrow
      (poolPayout - pool.seeded) finalBps)

section PaidOut

variable {cfg : ResolveConfig} {facts : ResolveFacts} {market : MarketRow} {entered : MarketState}
  {escrow : Int} {curatorOverride : Option CuratorDecision} {b b' : Book} {r : ResolveReceipt}

theorem payOut_cases (h : payOut cfg facts market entered escrow curatorOverride b = .ok (r, b')) :
    Nonempty (PaidOut cfg facts market entered escrow curatorOverride b r b') := by
  simp only [payOut, tryI64_eq_some, ok_iff] at h
  obtain ⟨⟨voided, finalBps⟩, hdecided, holdings, hheld, st, hst, entries, hentries, posted,
    hposted, collected, hcollected, ⟨store, poolPayout⟩, hpass, pool, hpool, _, ⟨rfl, -⟩, _, -, _,
    -, state, hstate, ledger, hledger, rfl, rfl⟩ := h
  exact ⟨⟨voided, finalBps, holdings, st, entries, posted, collected, store, poolPayout, pool,
    state, ledger, hdecided, hheld, hst, hentries, hposted, hcollected, hpass, hpool, hstate,
    hledger, rfl, rfl⟩⟩

namespace PaidOut

variable (p : PaidOut cfg facts market entered escrow curatorOverride b r b')

/-- The holdings in the order they were paid, with their payouts. -/
def paid : List (HoldingLine AccountKey × Int) :=
  (listHoldings facts.accountId p.holdings).zip (p.st.payouts.map Prod.snd)

theorem length_payouts :
    (p.st.payouts.map Prod.snd).length = (listHoldings facts.accountId p.holdings).length := by
  simpa using congrArg List.length (settleMarket_spec p.settled).1

theorem paid_snd : p.paid.map Prod.snd = p.st.payouts.map Prod.snd :=
  List.map_snd_zip p.length_payouts.le

theorem paid_fst : p.paid.map Prod.fst = listHoldings facts.accountId p.holdings :=
  List.map_fst_zip p.length_payouts.ge

theorem dust_eq : p.st.dust = escrow - (p.paid.map Prod.snd).sum := by
  rw [p.paid_snd]
  exact (settleMarket_spec p.settled).2

theorem mem_holdings :
    p.holdings = b.store.userHoldings market.id ++ b.store.poolHoldings market.id := by
  have hheld := p.held
  simp only [Store.holdings, ok_iff] at hheld
  obtain ⟨_, -, heq⟩ := hheld
  exact heq.symm

end PaidOut

end PaidOut

end Opinions.Payout
