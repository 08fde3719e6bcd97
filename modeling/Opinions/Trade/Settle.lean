import Opinions.Trade.Backing

/-! Settling a traded market (`settlement_entries` in
`application/src/resolve_market.rs`). The holdings of a backed market are its
pool's reserves and every open position; they are complete on both sides, so
every result settles and the payout entries empty the escrow. -/

namespace Opinions.Trade

open Lib.Checked Lib.Result Lib.Rows Lib.Run Domain.Amm Domain.Ledger Domain.Resolution Config Model
open Opinions.Store

namespace Store

instance (l : Ledger) (k : AccountKey) : Decidable (l.Opened k) :=
  inferInstanceAs (Decidable (k ∈ l.balances.rows.map Account.id))

/-- The open positions of a market whose user has a cash account. -/
def userHoldings (s : Store) (m : MarketId) : List (HoldingLine AccountKey) :=
  (s.positions.filter fun p =>
    p.outcome.market = m ∧ 0 < p.shares ∧ s.ledger.Opened (cash (.user p.user))).map
    fun p => { account := cash (.user p.user), side := p.outcome.side, shares := p.shares }

def poolHoldings (s : Store) (m : MarketId) : List (HoldingLine AccountKey) :=
  ((s.pool m).toList.flatMap fun row =>
    [{ account := cash (.marketPool m), side := .yes, shares := row.pool.yes },
     { account := cash (.marketPool m), side := .no, shares := row.pool.no }]).filter
    fun h => 0 < h.shares

def holdings (s : Store) (m : MarketId) : Except AppError (List (HoldingLine AccountKey)) := do
  refuse (¬s.ledger.Opened (cash (.marketPool m))) (.store (.notFound "market pool account"))
  pure (s.userHoldings m ++ s.poolHoldings m)

end Store

/-- One holder's payout: the checked total, and a leg unless it is zero. -/
def pushPayout (acc : List (Entry AccountKey) × Int) (p : AccountKey × Int) :
    Except AppError (List (Entry AccountKey) × Int) := do
  let total ← okOr (tryI64 (acc.2 + p.2)) .overflow
  pure (if p.2 ≠ 0 then acc.1 ++ [⟨p.1, p.2⟩] else acc.1, total)

/-- Each holder's payout, the dust to fees, the total out of escrow; zero legs are
left out. -/
def settlementEntries (escrowAccount feesAccount : AccountKey) (st : Settlement AccountKey) :
    Except AppError (List (Entry AccountKey)) := do
  let paid ← st.payouts.foldlM pushPayout ([], 0)
  let entries := if st.dust ≠ 0 then paid.1 ++ [⟨feesAccount, st.dust⟩] else paid.1
  let total ← okOr (tryI64 (paid.2 + st.dust)) .overflow
  pure (if total ≠ 0 then entries ++ [⟨escrowAccount, -total⟩] else entries)

def payoutLegs (payouts : List (AccountKey × Int)) : List (Entry AccountKey) :=
  (payouts.filter fun p => p.2 ≠ 0).map fun p => ⟨p.1, p.2⟩

variable {payouts : List (AccountKey × Int)} {acc : List (Entry AccountKey) × Int}
  {entries : List (Entry AccountKey)} {st : Settlement AccountKey} {p : PoolRow}
  {lines : List (HoldingLine AccountKey)} {m : MarketId}

theorem foldlM_pushPayout (hnn : ∀ p ∈ payouts, 0 ≤ p.2) (hacc : 0 ≤ acc.2)
    (hfit : FitsI64 (acc.2 + (payouts.map Prod.snd).sum)) :
    payouts.foldlM pushPayout acc =
      .ok (acc.1 ++ payoutLegs payouts, acc.2 + (payouts.map Prod.snd).sum) := by
  induction payouts generalizing acc with
  | nil => simp [payoutLegs, pure, Except.pure]
  | cons p payouts ih =>
    have hp := hnn p List.mem_cons_self
    have hrest : ∀ q ∈ payouts, 0 ≤ q.2 := fun q hq => hnn q (List.mem_cons_of_mem p hq)
    have htail : 0 ≤ (payouts.map Prod.snd).sum := sum_nonneg hrest
    rw [List.map_cons, List.sum_cons] at hfit
    obtain ⟨hlo, hhi⟩ := hfit
    have hpush : pushPayout acc p =
        .ok (if p.2 ≠ 0 then acc.1 ++ [⟨p.1, p.2⟩] else acc.1, acc.2 + p.2) := by
      unfold pushPayout
      rw [tryI64_of_fits (by constructor <;> omega), okOr_some]
      rfl
    rw [List.foldlM_cons, hpush, ok_bind,
      ih hrest (by dsimp only; omega) (by dsimp only; constructor <;> omega)]
    by_cases h0 : p.2 = 0 <;> simp [payoutLegs, h0, add_assoc]

theorem delta_payoutLegs {k : AccountKey} (hk : ∀ p ∈ payouts, p.1 ≠ k) :
    delta (payoutLegs payouts) k = 0 := by
  refine delta_eq_zero fun hmem => ?_
  obtain ⟨e, he, heq⟩ := List.mem_map.1 hmem
  obtain ⟨p, hp, rfl⟩ := List.mem_map.1 he
  exact hk p (List.mem_filter.1 hp).1 heq

variable {escrowAccount feesAccount : AccountKey}

/-- Non-negative payouts and dust leave the escrow, to the last unit. -/
theorem settlementEntries_drain (st : Settlement AccountKey) (hnn : ∀ p ∈ st.payouts, 0 ≤ p.2)
    (hdust : 0 ≤ st.dust) (hfit : FitsI64 ((st.payouts.map Prod.snd).sum + st.dust))
    (hholders : ∀ p ∈ st.payouts, p.1 ≠ escrowAccount) (hfees : feesAccount ≠ escrowAccount) :
    ∃ entries, settlementEntries escrowAccount feesAccount st = .ok entries ∧
      delta entries escrowAccount = -((st.payouts.map Prod.snd).sum + st.dust) := by
  have hsum : 0 ≤ (st.payouts.map Prod.snd).sum := sum_nonneg hnn
  have hloop : st.payouts.foldlM pushPayout ([], 0) =
      .ok (payoutLegs st.payouts, (st.payouts.map Prod.snd).sum) := by
    have hfit' : FitsI64 (0 + (st.payouts.map Prod.snd).sum) := by
      obtain ⟨hlo, hhi⟩ := hfit
      constructor <;> omega
    rw [foldlM_pushPayout hnn le_rfl hfit', List.nil_append, zero_add]
  have hlegs := delta_payoutLegs hholders
  unfold settlementEntries
  rw [hloop, ok_bind]
  dsimp only
  rw [tryI64_of_fits hfit, okOr_some, ok_bind]
  refine ⟨_, rfl, ?_⟩
  split_ifs <;> simp_all [delta_append]

theorem foldlM_pushPayout_spec {acc' : List (Entry AccountKey) × Int}
    (h : payouts.foldlM pushPayout acc = .ok acc') :
    acc' = (acc.1 ++ payoutLegs payouts, acc.2 + (payouts.map Prod.snd).sum) := by
  induction payouts generalizing acc with
  | nil =>
    rw [List.foldlM_nil, pure_eq_ok] at h
    simp [← h, payoutLegs]
  | cons p payouts ih =>
    simp only [List.foldlM_cons, pushPayout, tryI64_eq_some, ok_iff] at h
    obtain ⟨_, ⟨_, ⟨rfl, -⟩, rfl⟩, hrest⟩ := h
    rw [ih hrest]
    by_cases h0 : p.2 = 0 <;> simp [payoutLegs, h0, add_assoc]

/-- Whatever is paid to the holders, the dust goes to fees and the sum leaves the escrow. -/
theorem settlementEntries_spec
    (hholders : ∀ p ∈ st.payouts, p.1 ≠ escrowAccount ∧ p.1 ≠ feesAccount)
    (hfees : feesAccount ≠ escrowAccount)
    (h : settlementEntries escrowAccount feesAccount st = .ok entries) :
    delta entries feesAccount = st.dust ∧
      delta entries escrowAccount = -((st.payouts.map Prod.snd).sum + st.dust) ∧
      ∀ k, k ≠ escrowAccount → k ≠ feesAccount →
        delta entries k = delta (payoutLegs st.payouts) k := by
  simp only [settlementEntries, tryI64_eq_some, ok_iff] at h
  obtain ⟨paid, hpaid, total, ⟨rfl, -⟩, rfl⟩ := h
  obtain rfl := foldlM_pushPayout_spec hpaid
  have hescrow := delta_payoutLegs (k := escrowAccount) fun p hp => (hholders p hp).1
  have hfee := delta_payoutLegs (k := feesAccount) fun p hp => (hholders p hp).2
  have hne := hfees.symm
  refine ⟨?_, ?_, fun k hk hk' => ?_⟩
  · split_ifs <;> simp_all [delta_append]
  · split_ifs <;> simp_all [delta_append]
  · have hk₁ := hk.symm
    have hk₂ := hk'.symm
    split_ifs <;> simp_all [delta_append]

/-- A payout posts to the holders, the fees and the escrow. -/
theorem account_of_settlementEntries
    (h : settlementEntries escrowAccount feesAccount st = .ok entries) {e : Entry AccountKey}
    (he : e ∈ entries) :
    (∃ p ∈ st.payouts, e.account = p.1) ∨ e.account = feesAccount ∨ e.account = escrowAccount := by
  simp only [settlementEntries, ok_iff] at h
  obtain ⟨paid, hpaid, total, -, rfl⟩ := h
  obtain rfl := foldlM_pushPayout_spec hpaid
  have hlegs : ∀ e ∈ payoutLegs st.payouts, ∃ p ∈ st.payouts, e.account = p.1 := by
    intro e he
    obtain ⟨p, hp, rfl⟩ := List.mem_map.1 he
    exact ⟨p, (List.mem_filter.1 hp).1, rfl⟩
  split_ifs at he <;>
    simp only [List.nil_append, mem_concat] at he <;>
    grind

namespace Store

variable {s : Store}

/-- Filtering out closed and foreign positions drops nothing of the market's side. -/
theorem sideTotal_userHoldings (hs : s.Backed) (m : MarketId) (side : Side) :
    sideTotal side (s.userHoldings m) = s.held m side := by
  have hnn := hs.shares_nonneg
  have hopen := hs.holder_opened
  unfold userHoldings held heldIn
  generalize s.positions = positions at hnn hopen
  induction positions with
  | nil => rfl
  | cons p positions ih =>
    have hp := hnn p List.mem_cons_self
    have hpo := hopen p List.mem_cons_self
    have hrest := ih (fun q hq => hnn q (List.mem_cons_of_mem p hq))
      fun q hq => hopen q (List.mem_cons_of_mem p hq)
    rcases hout : p.outcome with ⟨m', side'⟩
    rw [List.filter_cons, List.map_cons, List.sum_cons, hout, ← hrest]
    by_cases hm : m' = m
    · by_cases hpos : 0 < p.shares
      · simp [hm, hpos, hpo, hout]
      · have hzero : p.shares = 0 := by omega
        simp [hzero]
    · simp [hm]

theorem poolHoldings_eq (hs : s.Backed) (hp : p ∈ s.pools) :
    s.poolHoldings p.market =
      [⟨cash (.marketPool p.market), .yes, p.pool.yes⟩,
       ⟨cash (.marketPool p.market), .no, p.pool.no⟩] := by
  have hyes : 0 < p.pool.yes := (hs.pool_valid p hp).reserve_pos .yes
  have hno : 0 < p.pool.no := (hs.pool_valid p hp).reserve_pos .no
  simp [poolHoldings, pool, find_of_mem hs.pools_nodup hp, hyes, hno]

/-- The holdings of a backed market, in any order. -/
structure Complete (s : Store) (m : MarketId) (lines : List (HoldingLine AccountKey)) : Prop where
  nonempty : lines ≠ []
  shares_nonneg : ∀ h ∈ lines, 0 ≤ h.shares
  complete : ∀ side, sideTotal side lines = s.escrow m
  holders : ∀ h ∈ lines, h.account ≠ cash (.marketEscrow m)

theorem Complete.perm {lines' : List (HoldingLine AccountKey)} (h : s.Complete m lines)
    (hp : lines'.Perm lines) : s.Complete m lines' where
  nonempty := fun hnil => h.nonempty (List.nil_perm.1 (hnil ▸ hp))
  shares_nonneg := fun x hx => h.shares_nonneg x (hp.mem_iff.1 hx)
  complete := fun side => (hp.map _).sum_eq.trans (h.complete side)
  holders := fun x hx => h.holders x (hp.mem_iff.1 hx)

theorem Backed.holdings (hs : s.Backed) (hp : p ∈ s.pools) :
    ∃ lines, s.holdings p.market = .ok lines ∧ s.Complete p.market lines := by
  have hopen := hs.pool_opened p hp
  have hpool := poolHoldings_eq hs hp
  refine ⟨s.userHoldings p.market ++ s.poolHoldings p.market, ?_, ?_, ?_, ?_, ?_⟩
  · rw [Store.holdings, refuse_neg (not_not.2 hopen)]
    rfl
  · simp [hpool]
  · intro h hh
    rw [hpool] at hh
    rcases List.mem_append.1 hh with hh | hh
    · obtain ⟨q, hq, rfl⟩ := List.mem_map.1 hh
      exact hs.shares_nonneg q (List.mem_filter.1 hq).1
    · have hv := (hs.pool_valid p hp).reserve_pos
      rcases List.mem_pair.1 hh with rfl | rfl
      · exact (hv .yes).le
      · exact (hv .no).le
  · intro side
    rw [sideTotal_append, sideTotal_userHoldings hs, hpool, hs.backed p hp side]
    cases side <;> simp [Pool.reserve] <;> omega
  · intro h hh
    rw [hpool] at hh
    rcases List.mem_append.1 hh with hh | hh
    · obtain ⟨q, hq, rfl⟩ := List.mem_map.1 hh
      simp [cash]
    · rcases List.mem_pair.1 hh with rfl | rfl <;> simp [cash]

/-- Complete holdings settle at every result, and the payout empties the escrow. -/
theorem Complete.settles (h : s.Complete m lines) (hrange : s.ledger.InRange) {bps : Nat}
    (hbps : bps ≤ 10000) :
    ∃ st entries, settleMarket lines bps (s.escrow m) = .ok st ∧
      settlementEntries (cash (.marketEscrow m)) (cash .fees) st = .ok entries ∧
      delta entries (cash (.marketEscrow m)) = -s.escrow m := by
  obtain ⟨r, -, hr, hst⟩ := settleMarket_of_complete hbps (hrange (cash (.marketEscrow m)))
    h.nonempty h.shares_nonneg h.complete
  obtain ⟨hlo, hhi⟩ := dust_bounds hr h.nonempty (h.complete .yes) (h.complete .no)
  have hsum : ((lines.map fun x => (x.account, payout r x)).map Prod.snd).sum +
      (s.escrow m - payoutSum r lines) = s.escrow m := by
    rw [List.map_map]
    change payoutSum r lines + _ = _
    omega
  have hpaid : ∀ p ∈ lines.map fun x => (x.account, payout r x),
      0 ≤ p.2 ∧ p.1 ≠ cash (.marketEscrow m) := by
    intro p hp
    obtain ⟨x, hx, rfl⟩ := List.mem_map.1 hp
    exact ⟨(payout_bounds hr (h.shares_nonneg x hx)).1, h.holders x hx⟩
  obtain ⟨entries, hentries, hdrain⟩ := settlementEntries_drain
    ⟨lines.map fun x => (x.account, payout r x), s.escrow m - payoutSum r lines⟩
    (fun p hp => (hpaid p hp).1) hlo (hsum.symm ▸ hrange (cash (.marketEscrow m)))
    (fun p hp => (hpaid p hp).2) (show cash .fees ≠ _ by simp [cash])
  exact ⟨_, entries, hst, hentries, hdrain.trans (congrArg Neg.neg hsum)⟩

end Store

/-- Along every run, a seeded market's escrow is the reserve plus the positions of
each side. Its holdings settle at every result, in whatever order the store lists
them, and the payout leaves the escrow at zero. -/
theorem escrow_backed_and_settles (cmds : List Command) (p : PoolRow)
    (hp : p ∈ (run Store.step Store.empty cmds).pools) :
    (∀ side, (run Store.step Store.empty cmds).escrow p.market =
      p.pool.reserve side + (run Store.step Store.empty cmds).held p.market side) ∧
    ∃ lines, (run Store.step Store.empty cmds).holdings p.market = .ok lines ∧
      ∀ listed, listed.Perm lines → ∀ bps ≤ 10000, ∃ st entries,
        settleMarket listed bps ((run Store.step Store.empty cmds).escrow p.market) = .ok st ∧
        settlementEntries (cash (.marketEscrow p.market)) (cash .fees) st = .ok entries ∧
        (run Store.step Store.empty cmds).escrow p.market +
          delta entries (cash (.marketEscrow p.market)) = 0 ∧
        ∀ l key l', Frame IsEscrow (run Store.step Store.empty cmds).ledger l →
          l.ledgerApply .payout key entries = .ok l' →
          l'.balanceOf (cash (.marketEscrow p.market)) = 0 := by
  have hs := Store.backed_run cmds
  refine ⟨hs.backed p hp, ?_⟩
  obtain ⟨lines, hlines, hcomplete⟩ := hs.holdings hp
  refine ⟨lines, hlines, fun listed hperm bps hbps => ?_⟩
  obtain ⟨st, entries, hst, hentries, hdrain⟩ :=
    (hcomplete.perm hperm).settles hs.inRange hbps
  have hzero : (run Store.step Store.empty cmds).escrow p.market +
      delta entries (cash (.marketEscrow p.market)) = 0 := by
    rw [hdrain]
    omega
  refine ⟨st, entries, hst, hentries, hzero, fun l key l' hframe happly => ?_⟩
  rwa [(Ledger.ledgerApply_spec happly).balanceOf, hframe.kept _ ⟨p.market, rfl⟩]

/-- A policy with one cap and no discount. -/
def flatRep : RepConfig :=
  { positionCapMicroByTier := ⟨#[5000000, 5000000, 5000000, 5000000, 5000000], rfl⟩
    feeDiscountBpByTier := ⟨#[0, 0, 0, 0, 0], rfl⟩, minFeeBps := 10, discountFlipWindowSecs := 0 }

/-- A voter without credits or debts, and no config entry. -/
def plainFacts : TradeFacts :=
  { now := 10, lots := [], receivables := [], gate := .ok (), tier := 0, voted := true
    config := ⟨none, none, none, none, 0, some []⟩, allocation := .ok () }

/-- A deposit, a seed of two dollars, a buy of fifty cents and a partial sell. -/
def sampleRun : List Command :=
  [.post .deposit "deposit" [⟨cash .external, -3000000⟩, ⟨cash .house, 2000000⟩,
      ⟨cash (.user ⟨7#128⟩), 1000000⟩] (by simp [IsEscrow, cash]),
   .seed flatRep ⟨0, 1⟩ ⟨⟨1#128⟩, "m", 1, 200, 100, 100, 2000000, "seed", false⟩,
   .advance ⟨1#128⟩ .goLive,
   .trade flatRep plainFacts ⟨⟨1#128⟩, ⟨7#128⟩, .yes, .buy, 500000, "buy", some 0⟩,
   .trade flatRep plainFacts ⟨⟨1#128⟩, ⟨7#128⟩, .yes, .sell, 100000, "sell", some 0⟩]

theorem sampleRun_backed_and_settles :
    (run Store.step Store.empty sampleRun).escrow ⟨1#128⟩ = 2434704 ∧
    ∃ lines, (run Store.step Store.empty sampleRun).holdings ⟨1#128⟩ = .ok lines ∧
      lines.length = 3 ∧ ∃ st entries, settleMarket lines 6000 2434704 = .ok st ∧
        settlementEntries (cash (.marketEscrow ⟨1#128⟩)) (cash .fees) st = .ok entries ∧
        2434704 + delta entries (cash (.marketEscrow ⟨1#128⟩)) = 0 := by
  have hp : (⟨⟨1#128⟩, ⟨1642911, 2434704, 100⟩, 2000000⟩ : PoolRow) ∈
      (run Store.step Store.empty sampleRun).pools := by
    decide +kernel
  have hescrow : (run Store.step Store.empty sampleRun).escrow ⟨1#128⟩ = 2434704 := by
    decide +kernel
  obtain ⟨-, lines, hlines, hsettle⟩ := escrow_backed_and_settles sampleRun _ hp
  obtain ⟨st, entries, hst, hentries, hzero, -⟩ :=
    hsettle lines (List.Perm.refl _) 6000 (by decide)
  rw [hescrow] at hst hzero
  refine ⟨hescrow, lines, hlines, ?_, st, entries, hst, hentries, hzero⟩
  have hlen : ((run Store.step Store.empty sampleRun).holdings ⟨1#128⟩).toOption.map List.length =
      some 3 := by
    decide +kernel
  simpa [hlines, Except.toOption] using hlen

end Opinions.Trade
