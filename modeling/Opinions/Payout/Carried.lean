import Opinions.Payout.Machine

/-! What every step of the book carries over: the tables stay well formed, and whatever a
position realizes is written as a fact under a booked key, so that the difference between
realized profits and facts never moves. -/

namespace Opinions.Payout

open Lib.Result Lib.Rows Domain.Ledger Domain.Market Domain.Resolution Model Store Trade
open Resolve Credit

/-- The realization fact of a trade is what its legs realized. -/
theorem factsOf_realization (user : UserId) (m : MarketId) (cmd : PlaceTradeCmd)
    (legs : QuotedLegs) (now : Instant) :
    factsOf user m (realization cmd legs now) =
      if ofUser user m (cmd.user, ⟨cmd.market, cmd.side⟩) then legs.realizedDelta.getD 0 else 0 := by
  unfold realization
  cases legs.realizedDelta <;> simp [factsOf, ofUser]

variable {s s' : Store} {cmd : PlaceTradeCmd} {legs : QuotedLegs} {now : Instant}
  {cfg : ResolveConfig} {curatorOverride : Option CuratorDecision} {entered : MarketState}
  {escrow : Int} {facts : ResolveFacts} {r : ResolveReceipt}

/-- A figure of the positions after a trade, against the old position or the fresh one a
first trade starts from. -/
theorem total_traded (ht : s.Tabled) (e : Store.TradeEffect cmd legs now s s')
    {P : UserId × OutcomeId → Bool} {g : PositionRow → Int}
    (hfresh : g (freshPosition cmd.user ⟨cmd.market, cmd.side⟩) = 0) :
    totalOver P g s'.positions = totalOver P g s.positions +
      if P (cmd.user, ⟨cmd.market, cmd.side⟩) then
        g legs.position - g ((s.position cmd.user ⟨cmd.market, cmd.side⟩).getD
          (freshPosition cmd.user ⟨cmd.market, cmd.side⟩))
      else 0 := by
  rw [e.positions, totalOver_upsert ht.positions_nodup, e.key]
  change _ + (if _ then _ - (s.position cmd.user ⟨cmd.market, cmd.side⟩).elim 0 g else 0) = _
  cases s.position cmd.user ⟨cmd.market, cmd.side⟩ with
  | none => rw [Option.getD_none, hfresh]; rfl
  | some => rfl

variable {b b' : Book}

namespace PaidOut

variable {market : MarketRow} (p : PaidOut cfg facts market entered escrow curatorOverride b r b')
include p

theorem account_of_line {line : HoldingLine AccountKey}
    (h : line ∈ listHoldings facts.accountId p.holdings) :
    (∃ user, line.account = cash (.user user)) ∨ line.account = cash (.marketPool market.id) := by
  rw [(perm_listHoldings _ _).mem_iff, p.mem_holdings] at h
  rcases List.mem_append.1 h with h | h
  · obtain ⟨q, -, rfl⟩ := List.mem_map.1 h
    exact Or.inl ⟨q.user, rfl⟩
  · obtain ⟨h, -⟩ := List.mem_filter.1 h
    obtain ⟨row, -, h⟩ := List.mem_flatMap.1 h
    rcases List.mem_pair.1 h with rfl | rfl <;> exact Or.inr rfl

theorem account_of_payout {q : AccountKey × Int} (hq : q ∈ p.st.payouts) :
    (∃ user, q.1 = cash (.user user)) ∨ q.1 = cash (.marketPool market.id) := by
  have hmem := List.mem_map_of_mem (f := Prod.fst) hq
  rw [(settleMarket_spec p.settled).1] at hmem
  obtain ⟨line, hline, heq⟩ := List.mem_map.1 hmem
  exact heq ▸ p.account_of_line hline

/-- What the payout transaction does to the fees and to the other escrows. -/
theorem delta_entries :
    delta p.entries (cash .fees) = p.st.dust ∧
      ∀ m, m ≠ market.id → delta p.entries (cash (.marketEscrow m)) = 0 := by
  have hoff : ∀ q ∈ p.st.payouts, q.1 ≠ cash .fees ∧ ∀ m, q.1 ≠ cash (.marketEscrow m) := by
    intro q hq
    rcases p.account_of_payout hq with ⟨user, h⟩ | h <;> simp [h, cash]
  obtain ⟨hfees, -, hrest⟩ := settlementEntries_spec
    (fun q hq => ⟨(hoff q hq).2 market.id, (hoff q hq).1⟩) (by simp [cash]) p.legs
  refine ⟨hfees, fun m hm => ?_⟩
  rw [hrest _ (by simpa [cash] using hm) (by simp [cash])]
  exact delta_payoutLegs fun q hq => (hoff q hq).2 m

theorem frame_collected : Frame IsEscrow p.posted p.collected :=
  collectPayouts_ledger issuing_frame p.collects

theorem frame_posted : Frame (fun _ => False) b.store.ledger p.posted :=
  ((Frame.account _ _).trans (Frame.account _ _)).trans (Frame.applied p.posts fun _ _ => id)

theorem pass (ht : b.store.Tabled) :
    Pass market.id p.paid ({ b.store with ledger := p.collected }, 0) (p.store, p.poolPayout) := by
  have hframe : Frame (fun _ => False) b.store.ledger p.collected :=
    p.frame_posted.trans (p.frame_collected.mono fun _ => False.elim)
  exact foldlM_settleHolding (ht.frame hframe rfl rfl) p.passed

theorem store_eq (ht : b.store.Tabled) : p.store = { b.store with
    ledger := p.collected
    positions := p.store.positions
    realizations := p.store.realizations } := (p.pass ht).kept

/-- From the payout transaction to the end of the payout. -/
theorem frame_ledger (ht : b.store.Tabled) : Frame IsEscrow p.posted p.ledger := by
  have hfinal := finalizeCredits_ledger issuing_frame p.finalized
  rw [p.store_eq ht] at hfinal
  exact p.frame_collected.trans hfinal

theorem store_result (ht : b.store.Tabled) : b'.store = { b.store with
    ledger := p.ledger
    markets := update MarketRow.id market.id (fun r => { r with state := p.state }) b.store.markets
    positions := p.store.positions
    realizations := p.store.realizations } := by
  have hmarkets : p.store.markets = b.store.markets := by rw [p.store_eq ht]
  have hpools : p.store.pools = b.store.pools := by rw [p.store_eq ht]
  have htrades : p.store.trades = b.store.trades := by rw [p.store_eq ht]
  have hfingerprints : p.store.fingerprints = b.store.fingerprints := by rw [p.store_eq ht]
  refine (congrArg Book.store p.result).trans ?_
  simp only [Book.setColumn, Book.setMarketState, hmarkets, hpools, htrades, hfingerprints]

theorem lpPnl_result (m : MarketId) : (b'.column m).lpPnl =
    if m = market.id then some (p.poolPayout - p.pool.seeded) else (b.column m).lpPnl := by
  refine (congrArg (fun x : Book => (x.column m).lpPnl) p.result).trans ?_
  rw [Book.column_setColumn, paidColumns, Book.market_column]
  split_ifs <;> rfl

end PaidOut

/-- The seed of a market: the house pays into its escrow. -/
def IsSeed (m : MarketId) (t : LedgerTxn) : Prop :=
  ∃ seed : Int, 0 < seed ∧
    t.entries = [⟨cash .house, -seed⟩, ⟨cash (.marketEscrow m), seed⟩]

structure Carried (s s' : Store) : Prop where
  tabled : s'.Tabled
  booked : ∀ t ∈ s.ledger.txns, t ∈ s'.ledger.txns
  realized : ∀ user m, totalOver (ofUser user m) PositionRow.realizedPnl s'.positions +
      factsOf user m s.realizations =
    totalOver (ofUser user m) PositionRow.realizedPnl s.positions + factsOf user m s'.realizations
  facts : ∀ f ∈ s'.realizations, f ∈ s.realizations ∨ f.ledgerKey ∈ s'.ledger.txns.map LedgerTxn.key
  listed : ∀ row ∈ s'.markets, row.id ∈ s.markets.map MarketRow.id ∨
    ∃ t ∈ s'.ledger.txns, IsSeed row.id t

/-- A change of the ledger, of the states of markets and of tables that are not looked at. -/
theorem Carried.framed (keep : AccountKey → Prop) (ht : s.Tabled)
    (hl : Frame keep s.ledger s'.ledger) (hpools : s'.pools = s.pools)
    (hpos : s'.positions = s.positions) (hreal : s'.realizations = s.realizations)
    (hmarkets : s'.markets.map MarketRow.id = s.markets.map MarketRow.id) : Carried s s' where
  tabled := ht.frame hl hpools hpos
  booked := hl.booked
  realized := fun _ _ => by rw [hpos, hreal]
  facts := fun f hf => Or.inl (hreal ▸ hf)
  listed := fun row hrow => Or.inl (hmarkets ▸ List.mem_map_of_mem hrow)

theorem Carried.refl (ht : s.Tabled) : Carried s s :=
  framed (fun _ => True) ht (Frame.refl _) rfl rfl rfl rfl

theorem map_id_setMarketState (b : Book) (m : MarketId) (state : MarketState) :
    (b.setMarketState m state).store.markets.map MarketRow.id =
      b.store.markets.map MarketRow.id :=
  map_key_update fun _ => rfl

theorem Carried.traded (ht : s.Tabled) (ht' : s'.Tabled) (e : Store.TradeEffect cmd legs now s s') :
    Carried s s' where
  tabled := ht'
  booked := e.booked
  realized := by
    intro user m
    have hreal := e.accounted.realized
    rw [total_traded ht e rfl, e.realizations, factsOf_append, factsOf_realization]
    split_ifs <;> omega
  facts := by
    intro f hf
    rw [e.realizations] at hf
    refine (List.mem_append.1 hf).imp_right fun hf => ?_
    unfold realization at hf
    split at hf
    · exact absurd hf List.not_mem_nil
    · rw [List.mem_singleton.1 hf]
      exact e.posted
  listed := fun row hrow => Or.inl (e.markets ▸ List.mem_map_of_mem hrow)

theorem Carried.seeded {cmd : SeedMarketCmd} (ht : s.Tabled) (sd : Store.Seeded cmd s s') :
    Carried s s' := by
  have ht' := ht.seeded sd
  obtain ⟨ledger, state, hpos, -, -, -, -, hposted, rfl⟩ := sd
  have happ := Ledger.ledgerApply_spec hposted
  refine ⟨ht', fun t htxn => ?_, fun _ _ => rfl, fun f hf => Or.inl hf, fun row hrow => ?_⟩
  · dsimp only
    rw [happ.txns]
    exact List.mem_append_left _ htxn
  · rcases mem_concat.1 hrow with hrow | rfl
    · exact Or.inl (List.mem_map_of_mem hrow)
    · dsimp only
      rw [happ.txns]
      exact Or.inr ⟨_, List.mem_append_right _ (List.mem_singleton.2 rfl), cmd.seed, hpos, rfl⟩

theorem Carried.market {c : Trade.Command} (ht : s.Tabled) (hstep : s.step c = .ok s') :
    Carried s s' := by
  cases c with
  | seed =>
    rcases Store.seedMarket_cases hstep with rfl | hseeded
    · exact Carried.refl ht
    · obtain ⟨sd⟩ := hseeded
      exact Carried.seeded ht sd
  | trade =>
    obtain ⟨receipt, htrade⟩ := map_snd_eq_ok.1 hstep
    rcases placeTrade_cases htrade with ⟨-, rfl⟩ | ⟨booked, -⟩
    · exact Carried.refl ht
    · exact Carried.traded ht (ht.placeTrade htrade) (ht.effect booked)
  | advance =>
    simp only [Store.step, ok_iff] at hstep
    obtain ⟨row, -, state, -, rfl⟩ := hstep
    exact Carried.framed IsEscrow ht (Frame.refl _) rfl rfl rfl
      (map_key_update fun _ => rfl)
  | post kind key entries hne =>
    simp only [Store.step, ok_iff] at hstep
    obtain ⟨ledger, hl, rfl⟩ := hstep
    exact Carried.framed IsEscrow ht ((Frame.openAll _ _).trans (Frame.applied hl hne)) rfl rfl rfl rfl

theorem PaidOut.carried {market : MarketRow} (ht : b.store.Tabled)
    (p : PaidOut cfg facts market entered escrow curatorOverride b r b') :
    Carried b.store b'.store := by
  have hpass := p.pass ht
  have hstore := p.store_result ht
  have hlast : Frame IsEscrow p.store.ledger p.ledger :=
    finalizeCredits_ledger issuing_frame p.finalized
  have hpaid : ∀ t ∈ p.posted.txns, t ∈ b'.store.ledger.txns := by
    rw [hstore]
    exact (p.frame_ledger ht).booked
  have hframe : Frame IsEscrow p.store.ledger b'.store.ledger := by
    rwa [hstore]
  refine ⟨?_, fun t htxn => hpaid t (p.frame_posted.booked t htxn), fun user m => ?_, fun f hf => ?_,
    fun row hrow => Or.inl ?_⟩
  · refine hpass.tabled.frame hframe ?_ ?_
    · rw [hstore, p.store_eq ht]
    · rw [hstore]
  · have hreal := hpass.realized user m
    rwa [hstore]
  · rw [hstore] at hf
    refine (hpass.facts f hf).imp_right fun hkey => ?_
    rw [hkey]
    refine List.mem_map.2 ⟨⟨resolveKey market.id, .payout, p.entries⟩, hpaid _ ?_, rfl⟩
    rw [(Ledger.ledgerApply_spec p.posts).txns]
    exact List.mem_append_right _ (List.mem_singleton.2 rfl)
  · have hids : b'.store.markets.map MarketRow.id = b.store.markets.map MarketRow.id := by
      rw [hstore]
      exact map_id_setMarketState b market.id p.state
    exact hids ▸ List.mem_map_of_mem hrow

theorem step_carried {c : Command} (ht : b.store.Tabled) (hstep : b.step c = .ok b') :
    Carried b.store b'.store := by
  cases step_moved hstep with
  | market c store stepped => exact Carried.market ht stepped
  | vote cfg facts cmd ledger votes converted =>
    exact Carried.framed IsEscrow ht
      (Frame.convertThenCollect (not_isEscrow_ingress cmd.user) converted) rfl rfl rfl rfl
  | quiet => exact Carried.refl ht
  | held =>
    exact Carried.framed IsEscrow ht (Frame.refl _) rfl rfl rfl (map_id_setMarketState b _ _)
  | paid _ _ _ _ _ _ _ _ _ paid => exact paid.carried ht

end Opinions.Payout
