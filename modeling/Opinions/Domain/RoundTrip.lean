import Opinions.Domain.Amm
import Opinions.Lib.Run

/-! Trading sequences against one pool. A session replays buy and sell orders and
records what the trader acquired, paid gross and received net of fees. Along every
session the reserves are the starting ones plus the complete sets minted less the
shares handed out, the minted sets are covered by what was paid over what was
received, and the product of the reserves never shrinks. -/

namespace Opinions.Domain.RoundTrip

open Domain.Amm Domain.Money Lib.Result Lib.Run

inductive Order
  | buy (side : Side) (collateral : Int) (fee : Nat)
  | sell (side : Side) (shares : Int) (fee : Nat)

structure Session where
  pool : Pool
  acquired : Side → Int
  paid : Int
  received : Int

def Session.start (pool : Pool) : Session :=
  { pool := pool, acquired := fun _ => 0, paid := 0, received := 0 }

def Session.step (s : Session) : Order → Except AmmError Session
  | .buy side collateral fee => do
    let q ← quoteBuy s.pool side collateral fee
    pure { s with
      pool := q.poolAfter
      acquired := Function.update s.acquired side (s.acquired side + q.sharesOut)
      paid := s.paid + collateral }
  | .sell side shares fee => do
    let q ← quoteSell s.pool side shares fee
    pure { s with
      pool := q.poolAfter
      acquired := Function.update s.acquired side (s.acquired side - shares)
      received := s.received + q.collateralOut }

/-- The state of a session against the pool it started from: `minted` complete
sets entered the reserves and the acquired shares left them. -/
structure Session.Backed (start : Pool) (s : Session) : Prop where
  valid : s.pool.Valid
  product_le : start.product ≤ s.pool.product
  covered : ∃ minted ≤ s.paid - s.received,
    ∀ side, s.pool.reserve side = start.reserve side + minted - s.acquired side

variable {pool : Pool} {fee : Nat} {s s' : Session} {side : Side}

theorem Session.backed_start (hv : pool.Valid) : (Session.start pool).Backed pool where
  valid := hv
  product_le := le_rfl
  covered := ⟨0, by simp [Session.start], fun side => by simp [Session.start]⟩

variable {collateral shares : Int} {parts : List Int}

theorem Session.backed_buy {start : Pool} (hs : s.Backed start)
    (h : s.step (.buy side collateral fee) = .ok s') : s'.Backed start := by
  simp only [Session.step, ok_iff] at h
  obtain ⟨q, hq, rfl⟩ := h
  have hb := quoteBuy_spec hs.valid hq
  obtain ⟨minted, hle, hres⟩ := hs.covered
  refine ⟨hb.valid, hs.product_le.trans hb.product_le, minted + (collateral - q.fee), ?_, ?_⟩
  · have := hb.fee_nonneg
    dsimp only
    omega
  · refine forall_side side ?_ ?_ <;> dsimp only
    · rw [hb.own, hres side, Function.update_self]
      omega
    · rw [hb.opposite, hres side.other, Function.update_of_ne side.other_ne]
      omega

theorem Session.backed_sell {start : Pool} (hs : s.Backed start)
    (h : s.step (.sell side shares fee) = .ok s') : s'.Backed start := by
  simp only [Session.step, ok_iff] at h
  obtain ⟨q, hq, rfl⟩ := h
  have hb := quoteSell_spec hs.valid hq
  obtain ⟨minted, hle, hres⟩ := hs.covered
  refine ⟨hb.valid, hs.product_le.trans hb.product_le, minted - (q.collateralOut + q.fee), ?_, ?_⟩
  · have := hb.fee_nonneg
    dsimp only
    omega
  · refine forall_side side ?_ ?_ <;> dsimp only
    · rw [hb.own, hres side, Function.update_self]
      omega
    · rw [hb.opposite, hres side.other, Function.update_of_ne side.other_ne]
      omega

theorem Session.backed_run (hv : pool.Valid) (orders : List Order) :
    (run Session.step (Session.start pool) orders).Backed pool := by
  refine run_preserves (fun o _ s s' hs h => ?_) (Session.backed_start hv)
  cases o with
  | buy => exact Session.backed_buy hs h
  | sell => exact Session.backed_sell hs h

/-- Adding `m` complete sets to positive reserves without shrinking their product
cannot take sets out. -/
theorem nonneg_of_product_le {y n m : Int} (hy : 0 < y + m) (hn : 0 < n)
    (hle : y * n ≤ (y + m) * (n + m)) : 0 ≤ m := by
  by_contra hm
  push Not at hm
  have h1 : (y + m) * (n + m) < (y + m) * n := mul_lt_mul_of_pos_left (by omega) hy
  have h2 : (y + m) * n < y * n := mul_lt_mul_of_pos_right (by omega) hn
  omega

/-- A session that ends with no net shares of either side is not profitable. -/
theorem received_le_paid_of_flat (pool : Pool) (hv : pool.Valid) (orders : List Order)
    (hyes : (run Session.step (Session.start pool) orders).acquired .yes = 0)
    (hno : (run Session.step (Session.start pool) orders).acquired .no = 0) :
    (run Session.step (Session.start pool) orders).received ≤
      (run Session.step (Session.start pool) orders).paid := by
  have hb := Session.backed_run hv orders
  generalize run Session.step (Session.start pool) orders = s at *
  obtain ⟨minted, hle, hres⟩ := hb.covered
  have hy := hres .yes
  have hn := hres .no
  rw [hyes, sub_zero] at hy
  rw [hno, sub_zero] at hn
  have hprod := hb.product_le
  simp only [Pool.product_eq _ .yes, Side.other] at hprod
  rw [hy, hn] at hprod
  have hpos := hb.valid.reserve_pos .yes
  rw [hy] at hpos
  have := nonneg_of_product_le hpos (hv.reserve_pos .no) hprod
  omega

/-- Two buys on opposite sides, sold back in three parts. -/
def unwound : List Order :=
  [.buy .yes 100 100, .buy .no 50 0, .sell .yes 100 100, .sell .no 107 50, .sell .yes 89 100]

theorem received_le_paid_unwound :
    (run Session.step (Session.start ⟨1000, 1000, 100⟩) unwound).received ≤
      (run Session.step (Session.start ⟨1000, 1000, 100⟩) unwound).paid :=
  have hnew : Pool.new 1000 1000 100 = .ok ⟨1000, 1000, 100⟩ := rfl
  received_le_paid_of_flat ⟨1000, 1000, 100⟩ (Pool.new_valid hnew).1 unwound (by decide) (by decide)

section Split

/-- No way to keep the product with at most the net collateral hands out more. -/
theorem le_sharesOut {minted out : Int} {q : BuyQuote} (hv : pool.Valid)
    (h : quoteBuy pool side collateral fee = .ok q) (hle : minted ≤ netOf collateral fee)
    (hown : 0 < pool.reserve side + minted - out) (hopp : 0 < pool.reserve side.other + minted)
    (hkeep : pool.product ≤
      (pool.reserve side + minted - out) * (pool.reserve side.other + minted)) :
    out ≤ q.sharesOut := by
  obtain ⟨-, -, -, net, rfl, -, -, -, -, hbest, -⟩ := quoteBuy_ok hv h
  rw [Pool.product_eq pool side] at hkeep
  exact hbest.2 (hkeep.trans (mul_le_mul (by omega) (by omega) hopp.le (by omega)))

/-- No burn that keeps the product after at most the sold shares came in pays more. -/
theorem netOf_le_collateralOut {sold burned : Int} {q : SellQuote} (hv : pool.Valid)
    (h : quoteSell pool side shares fee = .ok q) (hle : sold ≤ shares)
    (hopp : 0 < pool.reserve side.other - burned) (hkeep : pool.product ≤
      (pool.reserve side + sold - burned) * (pool.reserve side.other - burned)) :
    netOf burned fee ≤ q.collateralOut := by
  obtain ⟨-, -, hfee, c, -, hbest, -, rfl⟩ := quoteSell_ok hv h
  rw [Pool.product_eq pool side] at hkeep
  refine netOf_mono (hbest.2 ⟨by omega, hkeep.trans ?_⟩) hfee
  exact mul_le_mul_of_nonneg_right (by omega) hopp.le

/-- Consecutive buys mint no more than one buy of the sum, rounding included. -/
theorem buys_minted (hv : s.pool.Valid)
    (h : (parts.map (Order.buy side · fee)).foldlM Session.step s = .ok s') :
    s'.pool.Valid ∧ s.pool.product ≤ s'.pool.product ∧ ∃ minted ≤ netOf parts.sum fee,
      s'.pool.reserve side = s.pool.reserve side + minted - (s'.acquired side - s.acquired side) ∧
      s'.pool.reserve side.other = s.pool.reserve side.other + minted := by
  induction parts generalizing s with
  | nil =>
    obtain rfl : s = s' := pure_eq_ok.1 h
    exact ⟨hv, le_rfl, 0, by simp [netOf], by omega, by omega⟩
  | cons x parts ih =>
    simp only [List.map_cons, List.foldlM_cons, Session.step, ok_iff] at h
    obtain ⟨_, ⟨q, hq, rfl⟩, hrest⟩ := h
    have hb := quoteBuy_spec hv hq
    obtain ⟨-, -, -, net, hnet, -, -, -, -, -, hfee, -⟩ := quoteBuy_ok hv hq
    obtain ⟨hvalid, hprod, minted, hle, hown, hopp⟩ := ih hb.valid hrest
    have hadd := netOf_add_le x parts.sum fee
    rw [List.sum_cons]
    simp only [hb.own, Function.update_self] at hown
    rw [hb.opposite] at hopp
    exact ⟨hvalid, hb.product_le.trans hprod, net + minted, by omega, by omega, by omega⟩

/-- Consecutive sells pay no more than the fee leaves of what they burn together. -/
theorem sells_burned (hv : s.pool.Valid)
    (h : (parts.map (Order.sell side · fee)).foldlM Session.step s = .ok s') :
    s'.pool.Valid ∧ s.pool.product ≤ s'.pool.product ∧ ∃ burned,
      s'.received - s.received ≤ netOf burned fee ∧
      s'.pool.reserve side = s.pool.reserve side + parts.sum - burned ∧
      s'.pool.reserve side.other = s.pool.reserve side.other - burned := by
  induction parts generalizing s with
  | nil =>
    obtain rfl : s = s' := pure_eq_ok.1 h
    exact ⟨hv, le_rfl, 0, by simp [netOf], by simp, by omega⟩
  | cons x parts ih =>
    simp only [List.map_cons, List.foldlM_cons, Session.step, ok_iff] at h
    obtain ⟨_, ⟨q, hq, rfl⟩, hrest⟩ := h
    have hb := quoteSell_spec hv hq
    obtain ⟨-, -, -, c, -, -, -, rfl⟩ := quoteSell_ok hv hq
    obtain ⟨hvalid, hprod, burned, hle, hown, hopp⟩ := ih hb.valid hrest
    have hadd := netOf_add_le c burned fee
    simp only [Pool.reserve_ofReserves, Pool.reserve_other_ofReserves] at hle hown hopp
    rw [List.sum_cons]
    exact ⟨hvalid, hb.product_le.trans hprod, c + burned, by omega, by omega, by omega⟩

/-- Splitting an order never pays, and both quotes are monotone in the amount. -/
theorem splitting_never_pays (pool : Pool) (hv : pool.Valid) (side : Side) (fee : Nat) :
    (∀ (parts : List Int) q s, quoteBuy pool side parts.sum fee = .ok q →
      (parts.map (Order.buy side · fee)).foldlM Session.step (.start pool) = .ok s →
      s.acquired side ≤ q.sharesOut) ∧
    (∀ (parts : List Int) q s, quoteSell pool side parts.sum fee = .ok q →
      (parts.map (Order.sell side · fee)).foldlM Session.step (.start pool) = .ok s →
      s.received ≤ q.collateralOut) ∧
    (∀ x y q q', x ≤ y → quoteBuy pool side x fee = .ok q → quoteBuy pool side y fee = .ok q' →
      q.sharesOut ≤ q'.sharesOut) ∧
    (∀ x y q q', x ≤ y → quoteSell pool side x fee = .ok q → quoteSell pool side y fee = .ok q' →
      q.collateralOut ≤ q'.collateralOut) := by
  refine ⟨fun parts q s hq hparts => ?_, fun parts q s hq hparts => ?_,
    fun x y q q' hxy hx hy => ?_, fun x y q q' hxy hx hy => ?_⟩
  · obtain ⟨hvalid, hprod, minted, hle, hown, hopp⟩ := buys_minted (s := .start pool) hv hparts
    simp only [Session.start, sub_zero] at hprod hown hopp
    refine le_sharesOut hv hq hle ?_ ?_ ?_
    · exact hown ▸ hvalid.reserve_pos side
    · exact hopp ▸ hvalid.reserve_pos side.other
    · rwa [← hown, ← hopp, ← Pool.product_eq]
  · obtain ⟨hvalid, hprod, burned, hle, hown, hopp⟩ := sells_burned (s := .start pool) hv hparts
    simp only [Session.start, sub_zero] at hprod hle hown hopp
    refine hle.trans (netOf_le_collateralOut hv hq le_rfl ?_ ?_)
    · exact hopp ▸ hvalid.reserve_pos side.other
    · rwa [← hown, ← hopp, ← Pool.product_eq]
  · obtain ⟨-, -, hfee, net, hnet, hpos, -, -, hown, ⟨hkeep, -⟩, -⟩ := quoteBuy_ok hv hx
    refine le_sharesOut hv hy (hnet.trans_le (netOf_mono hxy hfee)) hown ?_ ?_
    · have := hv.reserve_pos side.other
      omega
    · rwa [Pool.product_eq pool side]
  · obtain ⟨-, -, hfee, c, hc, ⟨⟨hlt, hkeep⟩, -⟩, -, rfl⟩ := quoteSell_ok hv hx
    refine netOf_le_collateralOut hv hy hxy (sub_pos.2 hlt) ?_
    rwa [Pool.product_eq pool side]

theorem splitting_never_pays_even : ∃ s,
    ([30, 70].map (Order.buy .yes · 100)).foldlM Session.step (.start ⟨1000, 1000, 100⟩) = .ok s ∧
      s.acquired .yes ≤ 189 :=
  have hnew : Pool.new 1000 1000 100 = .ok ⟨1000, 1000, 100⟩ := rfl
  ⟨_, rfl, (splitting_never_pays ⟨1000, 1000, 100⟩ (Pool.new_valid hnew).1 .yes 100).1 [30, 70]
    ⟨189, 1, ⟨910, 1099, 100⟩, 529100⟩ _ (by decide +kernel) rfl⟩

end Split

end Opinions.Domain.RoundTrip
