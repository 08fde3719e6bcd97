import Opinions.Payout.Carried

/-! A market is a closed system. While it is open, what its positions cost beyond what they
brought in, with the seed, is what is in escrow and what went to fees. The payout closes
every position; then the realized profits, the liquidity provider's result, the fees and
the dust cancel to the last unit, and they stay so, since a paid market does not trade. -/

namespace Opinions.Payout

open Lib.Result Lib.Rows Lib.Run Domain.Ledger Domain.Market Domain.Resolution Model
open Store Trade Resolve Credit

def feesIn (m : MarketId) (trades : List TradeRow) : Int :=
  (trades.map fun t => if t.outcome.market = m then t.fee else 0).sum

/-- The seed of a market, zero before it. -/
def seededIn (m : MarketId) (s : Store) : Int := ((s.pool m).map PoolRow.seeded).getD 0

/-- The realized profits in a market, the provider's result, the fees and the dust of the
payout add up to nothing. -/
def Cancels (m : MarketId) (lpPnl : Int) (s : Store) : Prop :=
  ∃ t ∈ s.ledger.txns, t.key = resolveKey m ∧ t.kind = .payout ∧
    totalOver (inMarket m) PositionRow.realizedPnl s.positions + lpPnl + feesIn m s.trades +
      delta t.entries (cash .fees) = 0

structure Sound (b : Book) : Prop where
  tabled : b.store.Tabled
  emptied : ∀ p ∈ b.store.positions, p.shares = 0 → p.cost = 0
  realized : ∀ user m, totalOver (ofUser user m) PositionRow.realizedPnl b.store.positions =
    factsOf user m b.store.realizations
  balanced : ∀ m, (b.column m).lpPnl = none →
    totalOver (inMarket m) outlay b.store.positions + seededIn m b.store =
      b.store.escrow m + feesIn m b.store.trades
  terminal : ∀ m lp, (b.column m).lpPnl = some lp → b.Terminal m
  cancels : ∀ m lp, (b.column m).lpPnl = some lp → Cancels m lp b.store

theorem sound_empty : Sound Book.empty where
  tabled := Store.backed_empty.tabled
  emptied := by simp [Book.empty, Store.empty]
  realized := fun _ _ => rfl
  balanced := fun _ _ => rfl
  terminal := fun _ _ h => by cases h
  cancels := fun _ _ h => by cases h

variable {m : MarketId} {r : ResolveReceipt} {b b' : Book} {entered state : MarketState}
  {cfg : ResolveConfig} {facts : ResolveFacts} {c : Command}

section Steps

/-- A change of the ledger off the escrows and of tables that are not looked at. -/
theorem Sound.frame (h : Sound b) (hl : Frame IsEscrow b.store.ledger b'.store.ledger)
    (hpools : b'.store.pools = b.store.pools) (hpos : b'.store.positions = b.store.positions)
    (htrades : b'.store.trades = b.store.trades)
    (hreal : b'.store.realizations = b.store.realizations)
    (hlp : ∀ m, (b'.column m).lpPnl = (b.column m).lpPnl)
    (hterminal : ∀ m, b.Terminal m → b'.Terminal m) : Sound b' where
  tabled := h.tabled.frame hl hpools hpos
  emptied := by
    rw [hpos]
    exact h.emptied
  realized := by
    rw [hpos, hreal]
    exact h.realized
  balanced := by
    intro m hm
    rw [hlp] at hm
    rw [hpos, htrades, seededIn, Store.pool, hpools, Store.escrow, hl.kept _ ⟨m, rfl⟩]
    exact h.balanced m hm
  terminal := by
    intro m lp hm
    rw [hlp] at hm
    exact hterminal m (h.terminal m lp hm)
  cancels := by
    intro m lp hm
    rw [hlp] at hm
    obtain ⟨t, ht, hrest⟩ := h.cancels m lp hm
    refine ⟨t, hl.booked t ht, ?_⟩
    rwa [hpos, htrades]

theorem feesIn_concat (m : MarketId) (trades : List TradeRow) (t : TradeRow) :
    feesIn m (trades ++ [t]) = feesIn m trades + if t.outcome.market = m then t.fee else 0 := by
  simp [feesIn]

variable {s' : Store}

theorem Sound.traded {cmd : PlaceTradeCmd} {legs : QuotedLegs} {now : Instant} (h : Sound b)
    (ht : s'.Tabled) (e : Store.TradeEffect cmd legs now b.store s') :
    Sound { b with store := s' } := by
  obtain ⟨row, hrow, hlive⟩ := e.live
  have hopen : (b.column cmd.market).lpPnl = none := by
    cases hlp : (b.column cmd.market).lpPnl with
    | none => rfl
    | some lp =>
      obtain ⟨row', hrow', hstate⟩ := h.terminal _ lp hlp
      obtain rfl := Option.mem_unique hrow hrow'
      rw [hlive] at hstate
      rcases hstate with hstate | hstate <;> cases hstate
  -- the old position, or the fresh one a first trade starts from
  have hacc := e.accounted
  generalize hold : (b.store.position cmd.user ⟨cmd.market, cmd.side⟩).getD
    (freshPosition cmd.user ⟨cmd.market, cmd.side⟩) = old at hacc
  have hfig : ∀ (P : UserId × OutcomeId → Bool) (g : PositionRow → Int),
      g (freshPosition cmd.user ⟨cmd.market, cmd.side⟩) = 0 →
      totalOver P g s'.positions = totalOver P g b.store.positions +
        if P (cmd.user, ⟨cmd.market, cmd.side⟩) then g legs.position - g old else 0 := by
    intro P g hfresh
    rw [total_traded h.tabled e hfresh, hold]
  have hnonneg : 0 ≤ old.shares := by
    rw [← hold]
    cases hf : b.store.position cmd.user ⟨cmd.market, cmd.side⟩ with
    | none => exact le_rfl
    | some r => exact h.tabled.shares_nonneg r (mem_of_find hf)
  refine ⟨ht, ?_, ?_, ?_, ?_, ?_⟩
  · intro p hp hshares
    rw [e.positions] at hp
    rcases mem_of_mem_upsert hp with rfl | hp
    · exact hacc.emptied hnonneg hshares
    · exact h.emptied p hp hshares
  · intro user m
    have hreal := hacc.realized
    rw [hfig _ _ rfl, e.realizations, factsOf_append, factsOf_realization, h.realized]
    split_ifs <;> omega
  · intro m hm
    have hbal := h.balanced m hm
    have hout := hacc.outlay
    rw [hfig _ _ rfl, e.trades, feesIn_concat, seededIn, e.seeded, ← seededIn, e.escrow]
    by_cases hmarket : cmd.market = m
    · simp only [inMarket, outlay, tradeRow, hmarket, decide_true, if_true]
      omega
    · simp only [inMarket, tradeRow, hmarket, decide_false, Bool.false_eq_true, if_false]
      omega
  · exact fun m lp hm => (Book.terminal_congr e.markets m).2 (h.terminal m lp hm)
  · intro m lp hm
    obtain ⟨t, htm, hkey, hkind, hzero⟩ := h.cancels m lp hm
    have hne : cmd.market ≠ m := by
      rintro rfl
      have hnone := hm.symm.trans hopen
      cases hnone
    refine ⟨t, e.booked t htm, hkey, hkind, ?_⟩
    rw [hfig _ _ rfl, e.trades, feesIn_concat, if_neg (by simpa [inMarket] using hne),
      if_neg (by simpa [tradeRow] using hne)]
    omega

theorem Sound.seeded {cmd : SeedMarketCmd} (h : Sound b) (sd : Store.Seeded cmd b.store s') :
    Sound { b with store := s' } := by
  have happ := Ledger.ledgerApply_spec sd.posted
  have hescrow := sd.escrow
  have hnone : find PoolRow.market cmd.marketId b.store.pools = none := by
    rw [← Option.not_isSome_iff_eq_none, find_isSome]
    exact sd.fresh
  have hseed : ∀ m, seededIn m s' = seededIn m b.store + if cmd.marketId = m then cmd.seed else 0 := by
    intro m
    rw [sd.result, seededIn, seededIn, Store.pool, Store.pool, find_append, find_cons, find_nil]
    by_cases hm : cmd.marketId = m
    · subst hm
      simp [hnone]
    · simp [hm]
  refine ⟨h.tabled.seeded sd, ?_, ?_, ?_, ?_, ?_⟩
  · rw [sd.result]
    exact h.emptied
  · rw [sd.result]
    exact h.realized
  · intro m hm
    have hbal := h.balanced m hm
    dsimp only
    rw [hescrow, hseed]
    simp only [sd.result]
    omega
  · intro m lp hm
    obtain ⟨row, hrow, hstate⟩ := h.terminal m lp hm
    refine ⟨row, ?_, hstate⟩
    rw [Store.market] at hrow
    dsimp only
    rw [sd.result, Store.market, find_append, hrow, Option.some_or]
  · intro m lp hm
    obtain ⟨t, ht, hrest⟩ := h.cancels m lp hm
    rw [sd.result]
    refine ⟨t, ?_, hrest⟩
    dsimp only
    rw [happ.txns]
    exact List.mem_append_left _ ht

theorem transition_of_terminal (h : state = .paid ∨ state = .voided) (event : MarketEvent) :
    ∃ e, transition state event = .error e := by
  rcases h with rfl | rfl <;> cases event <;> exact ⟨_, rfl⟩

/-- Moving a market along an edge leaves paid and voided markets as they are. -/
theorem terminal_setMarketState {row : MarketRow} (hrow : b.store.market m = some row)
    (hopen : row.state ≠ .paid ∧ row.state ≠ .voided) {m' : MarketId} (h : b.Terminal m') :
    (b.setMarketState m state).Terminal m' := by
  obtain ⟨row', hrow', hstate⟩ := h
  have hne : m' ≠ m := by
    rintro rfl
    obtain rfl := Option.mem_unique hrow hrow'
    rcases hstate with hstate | hstate
    · exact hopen.1 hstate
    · exact hopen.2 hstate
  refine ⟨row', ?_, hstate⟩
  rw [Book.market_setMarketState, hrow', Option.map_some, if_neg hne]

theorem Sound.market {c : Trade.Command} (h : Sound b) (hstep : b.store.step c = .ok s') :
    Sound { b with store := s' } := by
  cases c with
  | seed =>
    rcases Store.seedMarket_cases hstep with rfl | hseeded
    · exact h
    · obtain ⟨sd⟩ := hseeded
      exact h.seeded sd
  | trade =>
    obtain ⟨receipt, htrade⟩ := map_snd_eq_ok.1 hstep
    have ht := h.tabled.placeTrade htrade
    rcases placeTrade_cases htrade with ⟨-, rfl⟩ | ⟨booked, -⟩
    · exact h
    · exact h.traded ht (h.tabled.effect booked)
  | advance m event =>
    simp only [Store.step, ok_iff] at hstep
    obtain ⟨row, hrow, state, hstate, rfl⟩ := hstep
    refine h.frame (Frame.refl _) rfl rfl rfl rfl (fun _ => rfl) fun m' hm' => ?_
    refine terminal_setMarketState hrow ⟨fun heq => ?_, fun heq => ?_⟩ hm'
    · obtain ⟨e, he⟩ := transition_of_terminal (Or.inl heq) event
      cases hstate.symm.trans he
    · obtain ⟨e, he⟩ := transition_of_terminal (Or.inr heq) event
      cases hstate.symm.trans he
  | post kind key entries hne =>
    simp only [Store.step, ok_iff] at hstep
    obtain ⟨ledger, hl, rfl⟩ := hstep
    exact h.frame ((Frame.openAll _ _).trans (Frame.applied hl hne)) rfl rfl rfl rfl
      (fun _ => rfl) fun _ hm => hm

section Payout

variable {market : MarketRow} {escrow : Int} {curatorOverride : Option CuratorDecision}

namespace PaidOut

variable (p : PaidOut cfg facts market entered escrow curatorOverride b r b')
include p

theorem cost_eq_zero (h : Sound b) {q : PositionRow} (hq : q ∈ p.store.positions)
    (hm : q.outcome.market = market.id) : q.cost = 0 := by
  rcases (p.pass h.tabled).closed q hq with ⟨-, hcost⟩ | ⟨hold, hunpaid⟩
  · exact hcost
  · refine h.emptied q hold ?_
    by_contra hshares
    have hpos : 0 < q.shares := lt_of_le_of_ne (h.tabled.shares_nonneg q hold) (Ne.symm hshares)
    -- an open position is among the holdings
    have hline : (⟨cash (.user q.user), q.outcome.side, q.shares⟩ : HoldingLine AccountKey) ∈
        p.paid.map Prod.fst := by
      rw [p.paid_fst, (perm_listHoldings _ _).mem_iff, p.mem_holdings]
      refine List.mem_append_left _ (List.mem_map.2 ⟨q, List.mem_filter.2 ⟨hold, ?_⟩, rfl⟩)
      simpa using ⟨hm, hpos, h.tabled.holder_opened q hold⟩
    obtain ⟨x, hx, heq⟩ := List.mem_map.1 hline
    refine hunpaid x hx q.user (by rw [heq]; rfl) ?_
    rw [heq, ← hm]
    rfl

omit p in
theorem totalOver_outlay {positions : List PositionRow}
    (h : ∀ q ∈ positions, q.outcome.market = m → q.cost = 0) :
    totalOver (inMarket m) outlay positions =
      -totalOver (inMarket m) PositionRow.realizedPnl positions := by
  unfold totalOver
  induction positions with
  | nil => rfl
  | cons q positions ih =>
    have hq := h q List.mem_cons_self
    have hrest := ih fun x hx => h x (List.mem_cons_of_mem q hx)
    have hone : (if inMarket m (Store.positionKey q) then outlay q else 0) =
        -if inMarket m (Store.positionKey q) then q.realizedPnl else 0 := by
      split_ifs with hin
      · rw [outlay, hq (of_decide_eq_true hin), zero_sub]
      · rfl
    rw [List.map_cons, List.map_cons, List.sum_cons, List.sum_cons, hrest, hone]
    omega

theorem cancels (h : Sound b) (hopen : (b.column market.id).lpPnl = none)
    (hescrow : escrow = b.store.escrow market.id) :
    totalOver (inMarket market.id) PositionRow.realizedPnl p.store.positions +
      (p.poolPayout - p.pool.seeded) + feesIn market.id b.store.trades + p.st.dust = 0 := by
  have hpass := p.pass h.tabled
  have hout := hpass.outlay
  have hpool := hpass.pool
  have hbal := h.balanced market.id hopen
  have hdust := p.dust_eq
  rw [totalOver_outlay fun q hq => p.cost_eq_zero h hq] at hout
  have hseed : seededIn market.id b.store = p.pool.seeded := by
    have hpooled := p.pooled
    rw [p.store_eq h.tabled] at hpooled
    change b.store.pool market.id = some p.pool at hpooled
    rw [seededIn, hpooled]
    rfl
  dsimp only at hout hpool
  omega

end PaidOut

/-- The payout of an open market. -/
theorem Sound.paidOut (h : Sound b) (hrow : b.store.market market.id = some market)
    (hstate : market.state = .resolving ∨ market.state = .closed)
    (hescrow : escrow = b.store.escrow market.id)
    (p : PaidOut cfg facts market .resolving escrow curatorOverride b r b') : Sound b' := by
  have hpass := p.pass h.tabled
  have hframe := p.frame_ledger h.tabled
  have happ := Ledger.ledgerApply_spec p.posts
  obtain ⟨hfees, hother⟩ := p.delta_entries
  have hopen : (b.column market.id).lpPnl = none := by
    cases hlp : (b.column market.id).lpPnl with
    | none => rfl
    | some lp =>
      obtain ⟨row, hrow', hterminal⟩ := h.terminal _ lp hlp
      obtain rfl := Option.mem_unique hrow hrow'
      rcases hstate with hs | hs <;> rw [hs] at hterminal <;> rcases hterminal with ht | ht <;>
        cases ht
  have hcancels := p.cancels h hopen hescrow
  have hstore := p.store_result h.tabled
  have hlp := p.lpPnl_result
  have hmarket : ∀ m, b'.store.market m =
      (b.setMarketState market.id p.state).store.market m := fun m => by rw [hstore]; rfl
  have hbooked : ∀ t ∈ p.posted.txns, t ∈ b'.store.ledger.txns := by
    rw [hstore]
    exact hframe.booked
  have hlast : Frame IsEscrow p.store.ledger b'.store.ledger := by
    rw [hstore]
    exact finalizeCredits_ledger issuing_frame p.finalized
  refine ⟨hpass.tabled.frame hlast ?_ ?_, ?_, ?_, ?_, ?_, ?_⟩
  · rw [hstore, p.store_eq h.tabled]
  · rw [hstore]
  · intro q hq hshares
    rw [hstore] at hq
    rcases hpass.closed q hq with ⟨-, hcost⟩ | ⟨hold, -⟩
    · exact hcost
    · exact h.emptied q hold hshares
  · intro user m
    have hreal := hpass.realized user m
    have hold := h.realized user m
    rw [hstore]
    dsimp only at hreal ⊢
    omega
  · intro m hm
    rw [hlp] at hm
    split_ifs at hm with hne
    have hbal := h.balanced m hm
    have hescrow' : b'.store.escrow m = b.store.escrow m := by
      rw [hstore, Store.escrow]
      dsimp only
      rw [hframe.kept _ ⟨m, rfl⟩, happ.balanceOf, hother m hne, add_zero,
        Ledger.balanceOf_account, Ledger.balanceOf_account, Store.escrow]
    rw [hescrow', seededIn, Store.pool, hstore]
    dsimp only
    rwa [hpass.elsewhere m hne]
  · intro m lp hm
    by_cases hne : m = market.id
    · subst hne
      refine ⟨{ market with state := p.state }, ?_, ?_⟩
      · rw [hmarket, Book.market_setMarketState, hrow, Option.map_some, if_pos rfl]
      · have hfinal := p.final
        rw [finalState_resolving] at hfinal
        rw [← Except.ok.inj hfinal]
        cases p.voided
        · exact Or.inl rfl
        · exact Or.inr rfl
    · rw [hlp, if_neg hne] at hm
      obtain ⟨row, hrow', hrest⟩ := terminal_setMarketState hrow (not_terminal_of_closed hstate)
        (h.terminal m lp hm)
      exact ⟨row, (hmarket m).trans hrow', hrest⟩
  · intro m lp hm
    rw [hlp] at hm
    split_ifs at hm with hne
    · subst hne
      cases hm
      refine ⟨⟨resolveKey market.id, .payout, p.entries⟩, hbooked _ ?_, rfl, rfl, ?_⟩
      · rw [happ.txns]
        exact List.mem_append_right _ (List.mem_singleton.2 rfl)
      · rwa [hstore, hfees]
    · obtain ⟨t, ht, hkey, hkind, hzero⟩ := h.cancels m lp hm
      refine ⟨t, hbooked t (p.frame_posted.booked t ht), hkey, hkind, ?_⟩
      rw [hstore]
      dsimp only
      rwa [hpass.elsewhere m hne]

end Payout

theorem outcome_of_held {market : MarketRow}
    (hheld : holdForReview cfg facts market entered b = .ok (r, b')) :
    ∃ dueAt, r.outcome = .heldForReview dueAt := by
  simp only [holdForReview, ok_iff] at hheld
  obtain ⟨delay, -, _, -, rfl, -⟩ := hheld
  exact ⟨_, rfl⟩

theorem replayed_of_replayReceipt (h : replayReceipt b m = .ok r) : r.replayed = true := by
  simp only [replayReceipt, bind_eq_ok] at h
  obtain ⟨market, -, h⟩ := h
  split at h
  · cases h
    rfl
  · simp only [ok_iff] at h
    obtain ⟨_, -, rfl⟩ := h
    rfl
  · cases h

theorem step_sound (h : Sound b) (hstep : b.step c = .ok b') : Sound b' := by
  cases step_moved hstep with
  | market c store stepped => exact h.market stepped
  | vote cfg facts cmd ledger votes converted =>
    exact h.frame (Frame.convertThenCollect (not_isEscrow_ingress cmd.user) converted)
      rfl rfl rfl rfl (fun _ => rfl) fun _ hm => hm
  | quiet _ _ _ _ lpPnl => exact h.frame (Frame.refl _) rfl rfl rfl rfl lpPnl fun _ hm => hm
  | held _ market _ _ row closed lpPnl =>
    exact h.frame (Frame.refl _) rfl rfl rfl rfl lpPnl fun m =>
      terminal_setMarketState row (not_terminal_of_closed (Or.inr closed))
  | paid _ _ _ _ _ _ _ row state paid => exact h.paidOut row state rfl paid

end Steps

theorem sound_run (cmds : List Command) : Sound (run Book.step Book.empty cmds) :=
  run_preserves (fun _ _ _ _ h hstep => step_sound h hstep) sound_empty

/-- A recorded result is not written again. -/
theorem step_lpPnl {lp : Int} (h : Sound b) (hlp : (b.column m).lpPnl = some lp)
    (hstep : b.step c = .ok b') : (b'.column m).lpPnl = some lp := by
  cases step_moved hstep with
  | market | vote => exact hlp
  | quiet _ _ _ _ lpPnl | held _ _ _ _ _ _ lpPnl => exact (lpPnl m).trans hlp
  | paid _ _ _ market _ _ _ row state paid =>
    -- a market with a result is terminal, so it is another one that was paid
    have hne : m ≠ market.id := by
      rintro rfl
      obtain ⟨row', hrow', hterminal⟩ := h.terminal _ lp hlp
      obtain rfl := Option.mem_unique row hrow'
      obtain ⟨hpaid, hvoided⟩ := not_terminal_of_closed state
      exact hterminal.elim hpaid hvoided
    rw [paid.lpPnl_result, if_neg hne, hlp]

/-- Once a resolution has settled or voided a market, the result of the provider is
recorded and, whatever happens after, the realized profits of all users, that result, all
fees and the dust of the payout cancel; and each user's realized profit is the sum of the
user's realization facts. -/
theorem market_zero_sum (before after : List Command) (cfg : ResolveConfig) (facts : ResolveFacts)
    (m : MarketId) (curatorOverride : Option CuratorDecision) (r : ResolveReceipt) (b' : Book)
    (hresolve : resolveMarket cfg facts m curatorOverride (run Book.step Book.empty before) =
      .ok (r, b'))
    (hterminal : r.replayed = false ∧ (r.outcome = .settled ∨ r.outcome = .voided)) :
    ∃ lpPnl, ((run Book.step b' after).column m).lpPnl = some lpPnl ∧
      (∃ t ∈ (run Book.step b' after).store.ledger.txns, t.key = resolveKey m ∧ t.kind = .payout ∧
        totalOver (inMarket m) PositionRow.realizedPnl (run Book.step b' after).store.positions +
          lpPnl + feesIn m (run Book.step b' after).store.trades +
          delta t.entries (cash .fees) = 0) ∧
      ∀ user, totalOver (ofUser user m) PositionRow.realizedPnl
          (run Book.step b' after).store.positions =
        factsOf user m (run Book.step b' after).store.realizations := by
  have hsound : Sound b' := step_sound (sound_run before) (c := .resolve cfg facts m curatorOverride)
    (map_snd_eq_ok.2 ⟨r, hresolve⟩)
  have hrecorded : ∃ lp, (b'.column m).lpPnl = some lp := by
    cases resolveMarket_cases hresolve with
    | replayed _ receipt => exact absurd (replayed_of_replayReceipt receipt) (by simp [hterminal.1])
    | held market _ _ _ hold =>
      obtain ⟨dueAt, hheld⟩ := outcome_of_held hold
      rcases hterminal.2 with h | h <;> rw [hheld] at h <;> cases h
    | paid market _ id _ _ paid => exact ⟨_, (paid.lpPnl_result m).trans (if_pos id.symm)⟩
  obtain ⟨lp, hlp⟩ := hrecorded
  have hkept : Sound (run Book.step b' after) ∧
      ((run Book.step b' after).column m).lpPnl = some lp :=
    run_preserves (P := fun b => Sound b ∧ (b.column m).lpPnl = some lp)
      (fun _ _ _ _ h hstep => ⟨step_sound h.1 hstep, step_lpPnl h.1 h.2 hstep⟩) ⟨hsound, hlp⟩
  obtain ⟨hafter, hlp'⟩ := hkept
  exact ⟨lp, hlp', hafter.cancels m lp hlp', fun user => hafter.realized user m⟩

def sampleResolveConfig : ResolveConfig :=
  { oiFloor := 0, payoutHoldThresholdMicro := 1000000000, sweepDelaySecs := 60
    thresholds := ⟨1, 1, 1, 1, 1, 1⟩ }

/-- Nobody owes, nobody was referred. -/
def sampleFacts : ResolveFacts :=
  { now := 300, settledAt := 300, accountId := fun k => if k = cash .fees then 1 else 2
    receivables := fun _ => [], reps := .ok (), scored := .ok (), credits := CreditDb.empty
    referral := fun _ =>
      { bind := none, parties := none, lockedParties := none, featureReferrals := false
        phoneVerified := false, policy := .error "", receivables := fun _ => []
        gate := fun _ => .ok (), paid := none, freshReferrer := 0, freshReferee := 0 }
    fresh := id }

/-- A buy, a partial sell, one vote, and the close. -/
def sampleMarket : List Command :=
  sampleRun.map .market ++
    [.vote ⟨10, 60, 0, 0⟩
      { guardNow := 20, now := 20, lots := [], receivables := [], gate := .ok ()
        hasChannel := true, userCreatedAt := .ok 0, votingPaused := none }
      ⟨⟨1#128⟩, ⟨7#128⟩, .yes, 60, "vote"⟩,
     .market (.advance ⟨1#128⟩ .enterCloseWindow), .market (.advance ⟨1#128⟩ .close)]

def sampleResolution : Except AppError (ResolveReceipt × Book) :=
  resolveMarket sampleResolveConfig sampleFacts ⟨1#128⟩ none (run Book.step Book.empty sampleMarket)

theorem sampleResolution_zero_sum :
    ∃ r b', sampleResolution = .ok (r, b') ∧ r.outcome = .settled ∧ r.finalYesBps = some 10000 ∧
      ∃ lpPnl, (b'.column ⟨1#128⟩).lpPnl = some lpPnl ∧
        ∃ t ∈ b'.store.ledger.txns, t.key = resolveKey ⟨1#128⟩ ∧ t.kind = .payout ∧
          totalOver (inMarket ⟨1#128⟩) PositionRow.realizedPnl b'.store.positions + lpPnl +
            feesIn ⟨1#128⟩ b'.store.trades + delta t.entries (cash .fees) = 0 := by
  have hreceipt : sampleResolution.map Prod.fst =
      .ok ⟨⟨1#128⟩, .settled, some 10000, false⟩ := by
    decide +kernel
  obtain ⟨⟨r, b'⟩, hresolve, hr⟩ := map_eq_ok.1 hreceipt
  dsimp only at hr
  subst hr
  obtain ⟨lp, hlp, hcancels, -⟩ := market_zero_sum sampleMarket [] _ _ _ _ _ _ hresolve
    ⟨rfl, Or.inl rfl⟩
  exact ⟨_, b', hresolve, rfl, rfl, lp, hlp, hcancels⟩

end Opinions.Payout
