import Opinions.Domain.Amm

/-! What the quotes of the market maker promise over the whole capped range. A buy
never overflows, is refused for exactly two reasons and hands out the most shares
that keep the product of the reserves. A successful sell burns the most that keeps
it. A sell that some burn allows is refused exactly when the uncorrected root already
reaches the opposite reserve, or for its fee rate. -/

namespace Opinions.Domain.Amm

open Lib.Result Domain.Money

variable {pool : Pool} {side : Side} {shares : Int} {fee : Nat}

theorem quoteBuy_negative {collateral : Int} (h : collateral < 0) :
    quoteBuy pool side collateral fee = .error .amountTooSmall := by
  have hmax : ¬maxAmount < collateral := by simp only [maxAmount]; omega
  simp only [quoteBuy, refuse_neg hmax, ok_bind, applyFee, refuse_pos h]
  rfl

/-- Buying is exact and total. -/
theorem quoteBuy_exact (pool : Pool) (side : Side) (collateral : Int) (fee : Nat)
    (hv : pool.Valid) (hmax : collateral ≤ maxAmount) (hfee : fee ≤ 10000) :
    let net := netOf collateral fee
    quoteBuy pool side collateral fee ≠ .error .overflow ∧
    (quoteBuy pool side collateral fee = .error .amountTooSmall ↔ collateral < 0 ∨ net = 0) ∧
    (quoteBuy pool side collateral fee = .error .inputTooLarge ↔
      maxReserve < pool.reserve side.other + net) ∧
    (0 ≤ collateral → net ≠ 0 → pool.reserve side.other + net ≤ maxReserve →
      ∃ q, quoteBuy pool side collateral fee = .ok q ∧ q.poolAfter.Valid ∧
        q.poolAfter.reserve side.other = pool.reserve side.other + net ∧
        q.poolAfter.reserve side + q.sharesOut = pool.reserve side + net ∧
        pool.product ≤ q.poolAfter.product ∧ net ≤ q.sharesOut ∧
        IsGreatest {x | pool.product ≤ (pool.reserve side + net - x) *
          (pool.reserve side.other + net)} q.sharesOut) := by
  intro net
  have hcap := hv.reserve_le side.other
  by_cases h0 : collateral < 0
  · have hneg : net ≤ 0 := by
      have hprod : collateral * 10000 ≤ collateral * fee :=
        mul_le_mul_of_nonpos_left (by exact_mod_cast hfee) h0.le
      simp only [net, netOf]
      omega
    have hcap' : ¬maxReserve < pool.reserve side.other + net := by omega
    simp [quoteBuy_negative h0, h0, hcap', not_le.2 h0]
  · obtain ⟨a, hra, -, -⟩ := hv.exists_nat side
    obtain ⟨b, hrb, -, -⟩ := hv.exists_nat side.other
    obtain ⟨n, hn⟩ := Int.eq_ofNat_of_zero_le (netOf_nonneg (not_lt.1 h0) hfee)
    have heq := quoteBuy_eq hv (not_lt.1 h0) hmax hfee hra hrb hn
    have hfull : maxReserve.natAbs < b + n ↔ maxReserve < (b : Int) + n := by
      simp only [maxReserve]
      omega
    rw [hrb] at hcap ⊢
    rw [show net = n from hn]
    by_cases hlarge : maxReserve < (b : Int) + n
    · have hne : n ≠ 0 := by omega
      simp only [refuse_pos (hfull.2 hlarge), error_bind] at heq
      simp [heq, hlarge, h0, hne, not_le.2 hlarge]
    · simp only [refuse_neg (mt hfull.1 hlarge), ok_bind] at heq
      by_cases hnone : n = 0
      · simp only [refuse_pos hnone, error_bind] at heq
        simp [heq, hnone, hcap]
      · simp only [refuse_neg hnone, ok_bind] at heq
        refine ⟨?_, ?_, ?_, fun _ _ _ => ⟨_, heq, ?_⟩⟩
        · simp [heq, pure, Except.pure]
        · simp [heq, pure, Except.pure, h0, hnone]
        · simp [heq, pure, Except.pure, hlarge]
        have hb := quoteBuy_spec hv heq
        obtain ⟨-, -, -, m, hm, -, hle, -, -, hbest, hq, -⟩ := quoteBuy_ok hv heq
        obtain rfl : m = n := hm.trans hn
        rw [hrb] at hbest
        refine ⟨hb.valid, ?_, ?_, hb.product_le, hle, ?_⟩
        · rw [hb.opposite, hq, hrb]
          omega
        · rw [hb.own, hq]
          omega
        · rwa [Pool.product_eq pool side, hrb]

theorem Pool.valid_of_new (h : Pool.new pool.yes pool.no pool.fee = .ok pool) : pool.Valid :=
  (Pool.new_valid h).1

theorem quoteBuy_exact_hundred :
    ∃ q, quoteBuy ⟨1000, 1000, 100⟩ .yes 100 100 = .ok q ∧ q.poolAfter.Valid ∧
      99 ≤ q.sharesOut := by
  have hv : (⟨1000, 1000, 100⟩ : Pool).Valid := Pool.valid_of_new rfl
  obtain ⟨-, -, -, hok⟩ := quoteBuy_exact ⟨1000, 1000, 100⟩ .yes 100 100 hv (by decide) (by decide)
  obtain ⟨q, hq, hvalid, -, -, -, hle, -⟩ := hok (by decide) (by decide) (by decide)
  exact ⟨q, hq, hvalid, hle⟩

/-- How often the correction loop decrements the burn. -/
def decrements (held opposite k : Nat) : Nat → Nat
  | 0 => 0
  | c + 1 =>
    if k ≤ (held - (c + 1)) * (opposite - (c + 1)) then 0
    else decrements held opposite k c + 1

theorem decrements_le_one (a b s : Nat) : decrements (a + s) b (a * b) (sellRoot a b s) ≤ 1 := by
  obtain ⟨hb, hs⟩ := sellRoot_le a b s
  have hprev := sellKeeps_sub_one a b s
  rcases hroot : sellRoot a b s with _ | _ | r
  · exact Nat.zero_le 1
  · simp only [decrements]
    split_ifs <;> omega
  · rw [hroot] at hb hs hprev
    have hkeep : SellKeeps a b s (r + 1 : Nat) := by simpa using hprev
    rw [sellKeeps_natCast (by omega) (by omega)] at hkeep
    simp only [decrements, if_pos hkeep]
    split_ifs <;> omega

def Pool.swap (pool : Pool) : Pool := ⟨pool.no, pool.yes, pool.fee⟩

def SellQuote.swap (q : SellQuote) : SellQuote := { q with poolAfter := q.poolAfter.swap }

theorem Pool.reserve_swap (pool : Pool) (side : Side) :
    pool.swap.reserve side.other = pool.reserve side := by
  cases side <;> rfl

theorem Pool.ofReserves_swap (side : Side) (own opposite : Int) (fee : Nat) :
    (Pool.ofReserves side own opposite fee).swap = Pool.ofReserves side.other own opposite fee := by
  cases side <;> rfl

theorem Pool.Valid.swap (hv : pool.Valid) : pool.swap.Valid := by
  refine ⟨fun s => ?_, fun s => ?_, hv.fee_le⟩ <;> rw [← s.other_other, Pool.reserve_swap]
  · exact hv.reserve_pos _
  · exact hv.reserve_le _

theorem quoteSell_swap (hv : pool.Valid) (hpos : 0 < shares) (hmax : shares ≤ maxAmount) :
    quoteSell pool.swap side.other shares fee =
      (quoteSell pool side shares fee).map SellQuote.swap := by
  obtain ⟨a, hra, -, -⟩ := hv.exists_nat side
  obtain ⟨b, hrb, -, -⟩ := hv.exists_nat side.other
  obtain ⟨s, hs⟩ := Int.eq_ofNat_of_zero_le hpos.le
  rw [quoteSell_eq hv (by omega) hmax hra hrb hs, quoteSell_eq hv.swap (by omega) hmax
    ((pool.reserve_swap side).trans hra) ((pool.reserve_swap side.other).trans hrb) hs]
  simp only [refuse]
  split_ifs <;> simp [Except.map, pure, Except.pure, SellQuote.swap, Pool.ofReserves_swap,
    show pool.swap.fee = pool.fee from rfl]

/-- Selling pays the best amount that keeps the product. -/
theorem quoteSell_exact (pool : Pool) (side : Side) (shares : Int) (fee : Nat) (hv : pool.Valid)
    (hpos : 0 < shares) (hmax : shares ≤ maxAmount) :
    let a := (pool.reserve side).natAbs
    let b := (pool.reserve side.other).natAbs
    let s := shares.natAbs
    (∀ q, quoteSell pool side shares fee = .ok q → q.poolAfter.Valid ∧
      ∃ c, IsGreatest {c | c < pool.reserve side.other ∧
          pool.product ≤ (pool.reserve side + shares - c) * (pool.reserve side.other - c)} c ∧
        q.collateralOut + q.fee = c ∧ 0 ≤ q.collateralOut ∧
        q.poolAfter.reserve side = pool.reserve side + shares - c ∧
        q.poolAfter.reserve side.other = pool.reserve side.other - c) ∧
    (isqrtU128 ((a + s + b) * (a + s + b) - s * b * 4) ≤ a + s + b ∧ sellRoot a b s ≤ a + s ∧
      sellRoot a b s ≤ b) ∧
    decrements (a + s) b (a * b) (sellRoot a b s) ≤ 1 ∧
    quoteSell pool side shares fee ≠ .error .overflow ∧
    quoteSell pool.swap side.other shares fee =
      (quoteSell pool side shares fee).map SellQuote.swap := by
  intro a b s
  refine ⟨fun q hq => ⟨(quoteSell_spec hv hq).valid, ?_⟩, ⟨?_, (sellRoot_le a b s).symm⟩,
    decrements_le_one a b s, ?_, quoteSell_swap hv hpos hmax⟩
  · have hs := quoteSell_spec hv hq
    obtain ⟨-, -, -, c, -, hbest, -, rfl⟩ := quoteSell_ok hv hq
    rw [Pool.product_eq pool side]
    exact ⟨c, hbest, by simp, hs.out_nonneg, by simp, by simp⟩
  · rw [isqrtU128_eq_sqrt]
    exact (Nat.sqrt_le_sqrt (Nat.sub_le _ _)).trans_eq (Nat.sqrt_eq _)
  · obtain ⟨a, hra, -, -⟩ := hv.exists_nat side
    obtain ⟨b, hrb, -, -⟩ := hv.exists_nat side.other
    obtain ⟨s, hs⟩ := Int.eq_ofNat_of_zero_le hpos.le
    rw [quoteSell_eq hv (by omega) hmax hra hrb hs]
    simp only [refuse]
    split_ifs <;> simp [pure, Except.pure]

theorem quoteSell_exact_hundred :
    ∃ q, quoteSell ⟨1000, 1000, 100⟩ .yes 100 100 = .ok q ∧ q.poolAfter.Valid := by
  have hv : (⟨1000, 1000, 100⟩ : Pool).Valid := Pool.valid_of_new rfl
  obtain ⟨hok, -⟩ := quoteSell_exact ⟨1000, 1000, 100⟩ .yes 100 100 hv (by decide) (by decide)
  exact ⟨⟨47, 1, ⟨1052, 952, 100⟩⟩, by decide +kernel, (hok _ (by decide +kernel)).1⟩

/-- A sell that some burn allows succeeds exactly when the floored root stays below the
opposite reserve before it is corrected. -/
theorem quoteSell_succeeds_iff (pool : Pool) (side : Side) (shares : Int) (fee : Nat)
    (hv : pool.Valid) (hpos : 0 < shares) (hmax : shares ≤ maxAmount)
    (hburn : ∃ c, 0 < c ∧ c < pool.reserve side.other ∧
      pool.product ≤ (pool.reserve side + shares - c) * (pool.reserve side.other - c) ∧
      pool.reserve side + shares - c ≤ maxReserve ∧ pool.reserve side.other - c ≤ maxReserve) :
    (∃ q, quoteSell pool side shares fee = .ok q) ↔ fee ≤ 10000 ∧
      pool.reserve side + shares < pool.reserve side.other + 2 * pool.product := by
  obtain ⟨a, hra, ha, -⟩ := hv.exists_nat side
  obtain ⟨b, hrb, hb, -⟩ := hv.exists_nat side.other
  obtain ⟨s, rfl⟩ := Int.eq_ofNat_of_zero_le hpos.le
  obtain ⟨c, hc, hcb, hkeep, hcap, -⟩ := hburn
  rw [Pool.product_eq pool side, hra, hrb] at hkeep
  rw [hrb] at hcb
  have hbest := (isGreatest_bestBurn ha hb).2 ⟨hcb, hkeep⟩
  rw [quoteSell_eq hv (by omega) hmax hra hrb rfl, Pool.product_eq pool side, hra, hrb,
    ← sellRoot_lt_iff]
  simp only [ok_iff]
  constructor
  · rintro ⟨_, -, hdrain, -, -, -, -, -, hfee, -⟩
    exact ⟨not_lt.1 hfee, not_le.1 hdrain⟩
  · rintro ⟨hfee, hdrain⟩
    refine ⟨_, (), not_le.2 hdrain, (), ?_, (), ?_, (), not_lt.2 hfee, rfl⟩
    · omega
    · simp only [maxReserve] at hcap ⊢
      omega

theorem quoteSell_succeeds_hundred : ∃ q, quoteSell ⟨1000, 1000, 100⟩ .yes 100 100 = .ok q :=
  have hv : (⟨1000, 1000, 100⟩ : Pool).Valid := Pool.valid_of_new rfl
  (quoteSell_succeeds_iff ⟨1000, 1000, 100⟩ .yes 100 100 hv (by decide) (by decide)
    ⟨1, by decide⟩).2 (by decide)

/-- Burning one complete set would keep the product of one and two, but the root of the
discriminant 24 is floored to 4 and the estimate is 2. -/
theorem quoteSell_refuses_burnable :
    (⟨1, 2, 0⟩ : Pool).Valid ∧ (2 : Int) ≤ (1 + 5 - 1) * (2 - 1) ∧
      quoteSell ⟨1, 2, 0⟩ .yes 5 0 = .error .drainsPool :=
  ⟨Pool.valid_of_new rfl, by decide, by decide +kernel⟩

end Opinions.Domain.Amm
