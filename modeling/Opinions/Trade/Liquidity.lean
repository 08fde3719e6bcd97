import Opinions.Trade.Settle

/-! What the liquidity provider can lose. No trade shrinks the product of a pool's reserves, so
however a market is traded the product stays at least the square of the seed. Reserves of such
a product are worth at least `2 * √(p * (1 - p))` of the seed at the result `p`. -/

namespace Opinions.Trade

open Lib.Result Lib.Rows Lib.Run Domain.Amm Model

variable {s s' : Store} {cmd : PlaceTradeCmd} {legs : QuotedLegs}

theorem product_le_quoteLegs {pool : Pool} {outcome : OutcomeId} {held : Option PositionRow}
    {fee : Nat} (hv : pool.Valid) (h : quoteLegs cmd pool outcome held fee = .ok legs) :
    pool.product ≤ legs.poolAfter.product := by
  unfold quoteLegs at h
  dsimp only at h
  split at h
  · simp only [buyLegs, ok_iff] at h
    obtain ⟨q, hq, _, -, _, -, _, -, rfl⟩ := h
    exact (quoteBuy_spec hv hq).product_le
  · simp only [sellLegs, ok_iff] at h
    obtain ⟨_, -, q, hq, _, -, _, -, _, -, _, -, _, -, _, -, rfl⟩ := h
    exact (quoteSell_spec hv hq).product_le

/-- The pools hold at least the product they were seeded with. -/
def Store.Seedworthy (s : Store) : Prop := ∀ p ∈ s.pools, p.seeded * p.seeded ≤ p.pool.product

theorem Store.Seedworthy.step {c : Command} (hs : s.Backed) (h : s.Seedworthy)
    (hstep : s.step c = .ok s') : s'.Seedworthy := by
  cases c with
  | seed =>
    rcases Store.seedMarket_cases hstep with rfl | ⟨⟨b⟩⟩
    · exact h
    · intro p hp
      rw [b.result] at hp
      rcases mem_concat.1 hp with hp | rfl
      · exact h p hp
      · exact le_rfl
  | trade rep facts cmd =>
    obtain ⟨receipt, hplace⟩ := map_snd_eq_ok.1 hstep
    rcases placeTrade_cases hplace with ⟨-, rfl⟩ | ⟨b, -⟩
    · exact h
    · have hpool := pool_of_priceTrade b.priced
      have hbooked := b.booked
      simp only [Trade.bookTrade, ok_iff] at hbooked
      obtain ⟨legs, hlegs, ledger, -, _, -, -, rfl⟩ := hbooked
      intro p hp
      obtain ⟨r, hr, rfl⟩ := mem_update.1 hp
      split_ifs with hmarket
      · have hfound : find PoolRow.market cmd.market s.pools = some r :=
          hmarket ▸ find_of_mem hs.pools_nodup hr
        obtain rfl := Option.mem_unique hpool hfound
        exact (h _ hr).trans (product_le_quoteLegs (hs.pool_valid _ hr) hlegs)
      · exact h r hr
  | advance =>
    simp only [Store.step, ok_iff] at hstep
    obtain ⟨_, -, _, -, rfl⟩ := hstep
    exact h
  | post =>
    simp only [Store.step, ok_iff] at hstep
    obtain ⟨_, -, rfl⟩ := hstep
    exact h

/-- What a pool's reserves redeem for at the result `bps`, in ten-thousandths. -/
def worth (pool : Pool) (bps : Int) : Int := pool.yes * bps + pool.no * (10000 - bps)

/-- However the markets are seeded and traded, the reserves of a pool, redeemed at `bps` of ten
thousand, are worth at least `2 * √(bps * (10000 - bps))` ten-thousandths of the seed. -/
theorem provider_loss_bounded (cmds : List Command) (p : PoolRow)
    (hp : p ∈ (run Store.step Store.empty cmds).pools) (bps : Int) (hlow : 0 ≤ bps)
    (hhigh : bps ≤ 10000) :
    0 ≤ worth p.pool bps ∧ 4 * (bps * (10000 - bps)) * p.seeded ^ 2 ≤ worth p.pool bps ^ 2 := by
  have hkept : (run Store.step Store.empty cmds).Backed ∧
      (run Store.step Store.empty cmds).Seedworthy :=
    run_preserves (P := fun s : Store => s.Backed ∧ s.Seedworthy)
      (fun _ _ _ _ h hstep => ⟨h.1.step hstep, h.2.step h.1 hstep⟩)
      ⟨Store.backed_empty, List.forall_mem_nil _⟩
  have hpos := (hkept.1.pool_valid p hp).reserve_pos
  have hproduct : p.seeded ^ 2 ≤ p.pool.yes * p.pool.no := by
    rw [sq]
    exact hkept.2 p hp
  have hrest : 0 ≤ 10000 - bps := sub_nonneg.2 hhigh
  refine ⟨add_nonneg (mul_nonneg (hpos .yes).le hlow) (mul_nonneg (hpos .no).le hrest), ?_⟩
  calc 4 * (bps * (10000 - bps)) * p.seeded ^ 2
      ≤ 4 * (bps * (10000 - bps)) * (p.pool.yes * p.pool.no) := by gcongr
    _ = 4 * (p.pool.yes * bps) * (p.pool.no * (10000 - bps)) := by ring
    _ ≤ _ := four_mul_le_sq_add _ _

theorem provider_loss_sampleRun :
    ∃ p ∈ (run Store.step Store.empty sampleRun).pools, p.seeded = 2000000 ∧
      0 ≤ worth p.pool 6000 ∧
        4 * (6000 * (10000 - 6000)) * 2000000 ^ 2 ≤ worth p.pool 6000 ^ 2 := by
  have hp : (⟨⟨1#128⟩, ⟨1642911, 2434704, 100⟩, 2000000⟩ : PoolRow) ∈
      (run Store.step Store.empty sampleRun).pools := by
    decide +kernel
  exact ⟨_, hp, rfl, provider_loss_bounded sampleRun _ hp 6000 (by decide) (by decide)⟩

end Opinions.Trade
