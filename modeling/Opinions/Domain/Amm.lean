import Opinions.Domain.Money

/-! The constant-product market maker over complete sets (`domain/src/amm.rs`).
Every product and discriminant is computed in checked unsigned 128-bit
arithmetic, a reserve never passes the closed cap, and rounding always favours
the pool. -/

namespace Opinions.Domain.Amm

open Lib.Checked Lib.Result Domain.Money

def maxReserve : Int := 1000000000000000

def maxAmount : Int := 1000000000000000

inductive Side
  | yes
  | no
  deriving DecidableEq

def Side.other : Side → Side
  | .yes => .no
  | .no => .yes

@[simp] theorem Side.other_other (s : Side) : s.other.other = s := by cases s <;> rfl

theorem Side.other_ne (s : Side) : s.other ≠ s := by cases s <;> simp [Side.other]

/-- A law of both sides, from the traded side and the opposite one. -/
theorem forall_side {P : Side → Prop} (side : Side) (hown : P side) (hopp : P side.other) :
    ∀ s, P s := by
  intro s
  cases s <;> cases side <;> assumption

structure Pool where
  yes : Int
  no : Int
  fee : Nat
  deriving DecidableEq

structure BuyQuote where
  sharesOut : Int
  fee : Int
  poolAfter : Pool
  avgPriceMicroPerShare : Int
  deriving DecidableEq

/-- `collateralOut` is after the fee. -/
structure SellQuote where
  collateralOut : Int
  fee : Int
  poolAfter : Pool
  deriving DecidableEq

inductive AmmError
  | emptyPool
  | amountTooSmall
  | drainsPool
  | inputTooLarge
  | overflow
  deriving DecidableEq

def AmmError.ofMoney : MoneyError → AmmError
  | .negativeAmount => .amountTooSmall
  | .overflow => .overflow
  | .feeTooHigh => .inputTooLarge

def Pool.reserve (pool : Pool) : Side → Int
  | .yes => pool.yes
  | .no => pool.no

/-- A pool from the reserve of `side`, the opposite reserve and a fee. -/
def Pool.ofReserves (side : Side) (own opposite : Int) (fee : Nat) : Pool :=
  match side with
  | .yes => { yes := own, no := opposite, fee := fee }
  | .no => { yes := opposite, no := own, fee := fee }

@[simp] theorem Pool.reserve_ofReserves (side : Side) (own opposite : Int)
    (fee : Nat) : (Pool.ofReserves side own opposite fee).reserve side = own := by
  cases side <;> rfl

@[simp] theorem Pool.reserve_other_ofReserves (side : Side) (own opposite : Int) (fee : Nat) :
    (Pool.ofReserves side own opposite fee).reserve side.other = opposite := by
  cases side <;> rfl

@[simp] theorem Pool.fee_ofReserves (side : Side) (own opposite : Int)
    (fee : Nat) : (Pool.ofReserves side own opposite fee).fee = fee := by
  cases side <;> rfl

/-- Positive reserves inside the cap: what `Pool.new` enforces. -/
structure Pool.Valid (pool : Pool) : Prop where
  reserve_pos : ∀ s, 0 < pool.reserve s
  reserve_le : ∀ s, pool.reserve s ≤ maxReserve
  fee_le : pool.fee ≤ 10000

def Pool.new (yes no : Int) (fee : Nat) : Except AmmError Pool := do
  refuse (yes ≤ 0 ∨ no ≤ 0) .emptyPool
  refuse (maxReserve < yes ∨ maxReserve < no ∨ 10000 < fee) .inputTooLarge
  pure { yes := yes, no := no, fee := fee }

variable {c fee : Nat} {pool : Pool} {q : SellQuote}

theorem Pool.new_valid {yes no : Int} (h : Pool.new yes no fee = .ok pool) :
    pool.Valid ∧ pool = { yes := yes, no := no, fee := fee } := by
  simp only [Pool.new, ok_iff] at h
  obtain ⟨_, hpos, _, hcap, rfl⟩ := h
  refine ⟨⟨fun s => ?_, fun s => ?_, by dsimp only; omega⟩, rfl⟩ <;>
    cases s <;> simp only [Pool.reserve] <;> omega

def Pool.product (pool : Pool) : Int := pool.yes * pool.no

theorem Pool.product_eq (pool : Pool) (s : Side) :
    pool.product = pool.reserve s * pool.reserve s.other := by
  cases s <;> simp [Pool.product, Pool.reserve, Side.other, Int.mul_comm]

/-! ### The integer square root -/

/-- The descent of `isqrt_u128` from the guess `r`. A guess strictly decreases
on every turn, so `r` turns are enough. -/
def isqrtLoop (x : Nat) : Nat → Nat → Nat
  | 0, r => r
  | fuel + 1, r =>
    let next := (r + x / r) / 2
    if r ≤ next then r else isqrtLoop x fuel next

/-- The bit length of `x` is `log2 x + 1`, and the seed is `1 << ⌈bits / 2⌉`. -/
def isqrtU128 (x : Nat) : Nat :=
  if x < 2 then x
  else
    let bits := x.log2 + 1
    let r := 1 <<< ((bits + 1) / 2)
    isqrtLoop x r r

theorem isqrtLoop_eq_iter {x fuel r : Nat} (h : r ≤ fuel) :
    isqrtLoop x fuel r = Nat.sqrt.iter x r := by
  induction fuel generalizing r with
  | zero =>
    obtain rfl : r = 0 := by omega
    rw [Nat.sqrt.iter]
    simp [isqrtLoop]
  | succ fuel ih =>
    rw [Nat.sqrt.iter, isqrtLoop]
    by_cases hlt : (r + x / r) / 2 < r
    · rw [if_neg (by omega), dif_pos hlt]
      exact ih (by omega)
    · rw [if_pos (by omega), dif_neg hlt]

/-- The Newton descent computes the floor square root. -/
theorem isqrtU128_eq_sqrt (x : Nat) : isqrtU128 x = Nat.sqrt x := by
  unfold isqrtU128 Nat.sqrt
  by_cases h : x < 2
  · rw [if_pos h, if_pos (by omega)]
  · rw [if_neg h, if_neg (by omega)]
    dsimp only
    rw [isqrtLoop_eq_iter le_rfl]
    congr 2
    omega

/-- The loop with what could stop it: a division by zero, or no return in `fuel` turns.
`u128::midpoint` does not overflow. -/
def isqrtTurns (x : Nat) : Nat → Nat → Option Nat
  | 0, _ => none
  | fuel + 1, r =>
    if r = 0 then none
    else
      let next := (r + x / r) / 2
      if r ≤ next then some r else isqrtTurns x fuel next

def isqrtWithin (fuel x : Nat) : Option Nat :=
  if x < 2 then some x
  else do
    let bits := x.log2 + 1
    let r ← checkedU128 (1 <<< ((bits + 1) / 2))
    isqrtTurns x fuel r

theorem isqrtTurns_eq {x fuel r : Nat} (hx : 2 ≤ x) (hr : 0 < r) (hfuel : r ≤ fuel) :
    isqrtTurns x fuel r = some (isqrtLoop x fuel r) := by
  induction fuel generalizing r with
  | zero => omega
  | succ fuel ih =>
    -- the next guess is positive: the quotient by one is `x` itself
    have hnext : 0 < (r + x / r) / 2 := by
      obtain rfl | hr : r = 1 ∨ 2 ≤ r := by omega
      · rw [Nat.div_one]
        omega
      · exact Nat.div_pos (Nat.le_add_right_of_le hr) (by decide)
    rw [isqrtTurns, isqrtLoop, if_neg hr.ne']
    dsimp only
    split_ifs
    · rfl
    · exact ih hnext (by omega)

/-- For every 128-bit word the root is returned within `2 ^ 64` turns, and it is the only
number whose square the word reaches and whose successor's it does not. -/
theorem isqrt_exact (x : BitVec 128) (extra : Nat) :
    isqrtWithin (2 ^ 64 + extra) x.toNat = some (isqrtU128 x.toNat) ∧
      ∀ r, r * r ≤ x.toNat ∧ x.toNat < (r + 1) * (r + 1) ↔ r = isqrtU128 x.toNat := by
  refine ⟨?_, fun r => by rw [isqrtU128_eq_sqrt, Nat.eq_sqrt]⟩
  by_cases hx : x.toNat < 2
  · rw [isqrtWithin, isqrtU128, if_pos hx, if_pos hx]
  · have hbits : x.toNat.log2 < 128 := (Nat.log2_lt (by omega)).2 x.isLt
    have hseed : 1 <<< ((x.toNat.log2 + 1 + 1) / 2) ≤ 2 ^ 64 := by
      rw [Nat.one_shiftLeft]
      exact Nat.pow_le_pow_right (by decide) (by omega)
    have hpos : 0 < 1 <<< ((x.toNat.log2 + 1 + 1) / 2) := by
      rw [Nat.one_shiftLeft]
      exact Nat.two_pow_pos _
    rw [isqrtWithin, isqrtU128, if_neg hx, if_neg hx]
    dsimp only
    rw [checkedU128_of_fits (lt_of_le_of_lt hseed (by decide)), Option.bind_eq_bind,
      Option.bind_some, isqrtTurns_eq (by omega) hpos (by omega),
      isqrtLoop_eq_iter (by omega), isqrtLoop_eq_iter le_rfl]

/-! ### Buying -/

/-- Buy `side` with gross `collateral`: the net amount mints complete sets, the
pool takes the opposite leg and keeps `⌈own · opposite / opposite_after⌉`. -/
def quoteBuy (pool : Pool) (side : Side) (collateral : Int) (fee : Nat) :
    Except AmmError BuyQuote := do
  refuse (maxAmount < collateral) .inputTooLarge
  let split ← (applyFee collateral fee).mapError AmmError.ofMoney
  let a := (pool.reserve side).natAbs
  let b := (pool.reserve side.other).natAbs
  let net := split.net.natAbs
  let bAfter ← okOr (checkedU128 (b + net)) .overflow
  refuse (maxReserve.natAbs < bAfter) .inputTooLarge
  let k ← okOr (checkedU128 (a * b)) .overflow
  let kRounded ← okOr (checkedU128 (k + (bAfter - 1))) .overflow
  let aPool := kRounded / bAfter
  let aNet ← okOr (checkedU128 (a + net)) .overflow
  let out ← okOr (checkedSub aNet aPool) .overflow
  refuse (out = 0) .amountTooSmall
  let scaled ← okOr (checkedU128 (collateral.natAbs * 1000000)) .overflow
  let sharesOut ← okOr (tryI64 out) .overflow
  let own ← okOr (tryI64 aPool) .overflow
  let opposite ← okOr (tryI64 bAfter) .overflow
  let avg ← okOr (tryI64 (scaled / out : Nat)) .overflow
  pure { sharesOut := sharesOut, fee := split.fee,
         poolAfter := Pool.ofReserves side own opposite pool.fee,
         avgPriceMicroPerShare := avg }

/-- The effect of a buy: the two reserves move by the net collateral, the shares
leave the bought side, and the product does not shrink. -/
structure Bought (pool : Pool) (side : Side) (collateral : Int) (q : BuyQuote) : Prop where
  fee_nonneg : 0 ≤ q.fee
  fee_le : q.fee ≤ collateral
  out_pos : 0 < q.sharesOut
  own : q.poolAfter.reserve side = pool.reserve side + (collateral - q.fee) - q.sharesOut
  opposite : q.poolAfter.reserve side.other = pool.reserve side.other + (collateral - q.fee)
  product_le : pool.product ≤ q.poolAfter.product
  valid : q.poolAfter.Valid
  collateral_le : collateral ≤ maxAmount

variable {side : Side} {collateral shares : Int}

theorem Pool.valid_of_reserves (side : Side)
    (hown : 0 < pool.reserve side ∧ pool.reserve side ≤ maxReserve)
    (hopp : 0 < pool.reserve side.other ∧ pool.reserve side.other ≤ maxReserve)
    (hfee : pool.fee ≤ 10000) : pool.Valid := by
  refine ⟨fun s => ?_, fun s => ?_, hfee⟩ <;> cases s <;> cases side <;>
    simp only [Side.other] at hown hopp <;> omega

/-- A valid pool's reserves as natural numbers. -/
theorem Pool.Valid.exists_nat (hv : pool.Valid) (s : Side) :
    ∃ n : Nat, pool.reserve s = n ∧ 0 < n ∧ (n : Int) ≤ maxReserve := by
  have hpos := hv.reserve_pos s
  have hle := hv.reserve_le s
  exact ⟨(pool.reserve s).toNat, by omega, by omega, by omega⟩

/-- The reserve `⌈a · b / (b + net)⌉` a buy leaves on the bought side. -/
def retained (a b net : Nat) : Nat := (a * b + (b + net - 1)) / (b + net)

/-- It keeps the product and is between one and the old reserve. -/
theorem retained_spec (a b net : Nat) (ha : 0 < a) (hb : 0 < b) :
    a * b ≤ retained a b net * (b + net) ∧ 0 < retained a b net ∧ retained a b net ≤ a := by
  have hkeep : a * b ≤ retained a b net * (b + net) := by
    have h := Nat.lt_mul_div_succ (a * b + (b + net - 1)) (show 0 < b + net by omega)
    rw [Nat.mul_add] at h
    rw [Nat.mul_comm (retained a b net)]
    change a * b + (b + net - 1) < (b + net) * retained a b net + (b + net) * 1 at h
    omega
  have hle : retained a b net ≤ a := by
    have hlt : a * b + (b + net - 1) < (b + net) * (a + 1) := by
      have : (b + net) * (a + 1) = a * b + net * a + (b + net) := by ring
      omega
    exact Nat.le_of_lt_succ (Nat.div_lt_of_lt_mul hlt)
  have hab : 0 < a * b := Nat.mul_pos ha hb
  refine ⟨hkeep, Nat.pos_of_ne_zero fun h0 => ?_, hle⟩
  rw [h0, Nat.zero_mul] at hkeep
  omega

/-- Shares `x` leave the bought side after `net` complete sets were minted, and the product
does not shrink. -/
def BuyKeeps (own opposite net x : Int) : Prop :=
  own * opposite ≤ (own + net - x) * (opposite + net)

/-- Handing out the most that keeps the product leaves the retained reserve. -/
theorem isGreatest_retained (a b net : Nat) (ha : 0 < a) (hb : 0 < b) :
    IsGreatest {x : Int | BuyKeeps a b net x} (a + net - retained a b net) := by
  obtain ⟨hkeep, -, -⟩ := retained_spec a b net ha hb
  have hmul : retained a b net * (b + net) ≤ a * b + (b + net - 1) := Nat.div_mul_le_self _ _
  have hless : (retained a b net * (b + net) : Int) < a * b + (b + net) := by
    have : retained a b net * (b + net) < a * b + (b + net) := by omega
    exact_mod_cast this
  have hkeep' : (a * b : Int) ≤ retained a b net * (b + net) := by exact_mod_cast hkeep
  refine ⟨?_, fun x hx => ?_⟩
  · simpa [BuyKeeps] using hkeep'
  · by_contra hgt
    have hdrop : (a + net - x + 1 : Int) * (b + net) ≤ retained a b net * (b + net) :=
      mul_le_mul_of_nonneg_right (by omega) (by positivity)
    have hx : (a * b : Int) ≤ (a + net - x) * (b + net) := hx
    rw [add_mul, one_mul] at hdrop
    omega

variable {a b s : Nat}

/-- No checked step of a buy in range can overflow: the cap and the empty purchase are all
that is left to refuse. -/
theorem quoteBuy_eq {net : Nat} (hv : pool.Valid) (h0 : 0 ≤ collateral)
    (hmax : collateral ≤ maxAmount) (hfee : fee ≤ 10000) (hra : pool.reserve side = a)
    (hrb : pool.reserve side.other = b) (hn : netOf collateral fee = net) :
    quoteBuy pool side collateral fee = (do
      refuse (maxReserve.natAbs < b + net) .inputTooLarge
      refuse (net = 0) .amountTooSmall
      pure { sharesOut := (a + net - retained a b net : Nat), fee := collateral - net
             poolAfter := Pool.ofReserves side (retained a b net) (b + net : Nat) pool.fee
             avgPriceMicroPerShare :=
               (collateral.natAbs * 1000000 / (a + net - retained a b net) : Nat) }) := by
  have hpos := hv.reserve_pos
  have hcap := hv.reserve_le
  have ha := hra ▸ hpos side
  have hb := hrb ▸ hpos side.other
  have ha' := hra ▸ hcap side
  have hb' := hrb ▸ hcap side.other
  have hle := netOf_le h0 fee
  have hgross := lt_of_netOf_ne_zero h0 hfee
  obtain ⟨hkeep, hret, hret'⟩ := retained_spec a b net (by omega) (by omega)
  simp only [maxAmount, maxReserve, hn] at hmax ha' hb' hle hgross
  have hfit : FitsI64 collateral := by constructor <;> omega
  have hab : a * b ≤ 1000000000000000 * 1000000000000000 := Nat.mul_le_mul (by omega) (by omega)
  have hout : a + net - retained a b net = 0 ↔ net = 0 := by
    refine ⟨fun hnone => by omega, fun hnone => ?_⟩
    rw [hnone, Nat.add_zero] at hkeep ⊢
    have := Nat.le_of_mul_le_mul_right hkeep (by omega)
    omega
  have havg : FitsI64 (collateral.natAbs * 1000000 / (a + net - retained a b net) : Nat) := by
    have hlt : collateral.natAbs * 1000000 / (a + net - retained a b net) < 20000000000 := by
      by_cases hnone : net = 0
      · simp [hout.2 hnone]
      · exact Nat.div_lt_of_lt_mul (by omega)
    exact fitsI64_natCast (hlt.le.trans (by decide))
  -- the rewrites are kept as proofs: left to the kernel, they unfold the divisions
  simp -implicitDefEqProofs only [quoteBuy,
    refuse_neg (show ¬maxAmount < collateral by simpa [maxAmount]), ok_bind,
    applyFee_ok h0 hfit hfee, Except.mapError, hra, hrb, hn, Int.natAbs_natCast,
    checkedU128_of_fits (show FitsU128 (b + net) by omega),
    checkedU128_of_fits (show FitsU128 (a * b) by omega),
    checkedU128_of_fits (show FitsU128 (a * b + (b + net - 1)) by omega),
    checkedU128_of_fits (show FitsU128 (a + net) by omega), okOr_some,
    show (a * b + (b + net - 1)) / (b + net) = retained a b net from rfl,
    checkedSub_of_le (show retained a b net ≤ a + net by omega),
    checkedU128_of_fits (show FitsU128 (collateral.natAbs * 1000000) by omega),
    tryI64_of_fits (fitsI64_natCast (show a + net - retained a b net ≤ _ by omega)),
    tryI64_of_fits (fitsI64_natCast (show retained a b net ≤ _ by omega)),
    tryI64_of_fits (fitsI64_natCast (show b + net ≤ _ by omega)),
    tryI64_of_fits havg, hout]

/-- A successful buy hands out the most that keeps the product. -/
theorem quoteBuy_ok {q : BuyQuote} (hv : pool.Valid)
    (h : quoteBuy pool side collateral fee = .ok q) :
    0 ≤ collateral ∧ collateral ≤ maxAmount ∧ fee ≤ 10000 ∧
      ∃ net, net = netOf collateral fee ∧ 0 < net ∧ net ≤ q.sharesOut ∧
        pool.reserve side.other + net ≤ maxReserve ∧ 0 < pool.reserve side + net - q.sharesOut ∧
        IsGreatest {x | BuyKeeps (pool.reserve side) (pool.reserve side.other) net x} q.sharesOut ∧
        q.fee = collateral - net ∧
        q.poolAfter = Pool.ofReserves side (pool.reserve side + net - q.sharesOut)
          (pool.reserve side.other + net) pool.fee := by
  obtain ⟨h0, hmax, hfee⟩ : 0 ≤ collateral ∧ collateral ≤ maxAmount ∧ fee ≤ 10000 := by
    simp only [quoteBuy, ok_iff] at h
    obtain ⟨-, hmax, split, hsplit, -⟩ := h
    obtain ⟨hg, hf, -⟩ := applyFee_spec hsplit
    exact ⟨hg, not_lt.1 hmax, hf⟩
  obtain ⟨a, hra, ha, -⟩ := hv.exists_nat side
  obtain ⟨b, hrb, hb, -⟩ := hv.exists_nat side.other
  obtain ⟨net, hn⟩ := Int.eq_ofNat_of_zero_le (netOf_nonneg h0 hfee)
  obtain ⟨-, hret, hret'⟩ := retained_spec a b net ha hb
  have hbest := isGreatest_retained a b net ha hb
  rw [quoteBuy_eq hv h0 hmax hfee hra hrb hn] at h
  simp only [ok_iff] at h
  obtain ⟨-, hcap, -, hnone, rfl⟩ := h
  have hcast : ((a + net - retained a b net : Nat) : Int) = a + net - retained a b net := by omega
  simp only [maxReserve] at hcap
  simp only [hra, hrb, hcast, maxReserve]
  refine ⟨h0, hmax, hfee, net, hn.symm, by omega, by omega, by omega, by omega, hbest, rfl, ?_⟩
  rw [sub_sub_cancel, Nat.cast_add]

theorem quoteBuy_spec {q : BuyQuote} (hv : pool.Valid)
    (h : quoteBuy pool side collateral fee = .ok q) :
    Bought pool side collateral q := by
  obtain ⟨h0, hmax, -, net, hnet, hpos, hout, hcap, hown, ⟨hkeep, -⟩, hfee, hafter⟩ :=
    quoteBuy_ok hv h
  have hle := netOf_le h0 fee
  have hra := hv.reserve_le side
  have hrb := hv.reserve_pos side.other
  exact {
    fee_nonneg := by omega
    fee_le := by omega
    out_pos := by omega
    own := by rw [hafter, Pool.reserve_ofReserves]; omega
    opposite := by rw [hafter, Pool.reserve_other_ofReserves]; omega
    product_le := by
      rwa [Pool.product_eq _ side, Pool.product_eq _ side, hafter, Pool.reserve_ofReserves,
        Pool.reserve_other_ofReserves]
    valid := by
      refine Pool.valid_of_reserves side ?_ ?_ ?_ <;>
        simp only [hafter, Pool.reserve_ofReserves, Pool.reserve_other_ofReserves,
          Pool.fee_ofReserves]
      · omega
      · omega
      · exact hv.fee_le
    collateral_le := hmax }

/-! ### Selling -/

/-- The correction loop of a sell: decrement the burn while the product of the
reserves would shrink below `k`. `held` is the sold reserve plus the sold shares. -/
def burnDown (held opposite k : Nat) : Nat → Except AmmError Nat
  | 0 => .error .amountTooSmall
  | c + 1 => do
    let afterProduct ← okOr (checkedU128 ((held - (c + 1)) * (opposite - (c + 1)))) .overflow
    if k ≤ afterProduct then .ok (c + 1) else burnDown held opposite k c

/-- Sell `shares` of `side`: they go back to the pool, then `c` complete sets
burn, where `c` is the floored smaller root of
`(own + s - c) · (opposite - c) = own · opposite`, corrected downwards. -/
def quoteSell (pool : Pool) (side : Side) (shares : Int) (fee : Nat) :
    Except AmmError SellQuote := do
  refuse (shares ≤ 0) .amountTooSmall
  refuse (maxAmount < shares) .inputTooLarge
  let sellSide := (pool.reserve side).natAbs
  let otherSide := (pool.reserve side.other).natAbs
  let s := shares.natAbs
  let k ← okOr (checkedU128 (sellSide * otherSide)) .overflow
  let held ← okOr (checkedU128 (sellSide + s)) .overflow
  let bsum ← okOr (checkedU128 (held + otherSide)) .overflow
  let sb ← okOr (checkedU128 (s * otherSide)) .overflow
  let fourSb ← okOr (checkedU128 (sb * 4)) .overflow
  let square ← okOr (checkedU128 (bsum * bsum)) .overflow
  let disc ← okOr (checkedSub square fourSb) .overflow
  let root := (bsum - isqrtU128 disc) / 2
  refuse (otherSide ≤ root) .drainsPool
  let c ← burnDown held otherSide k root
  let sellAfter := held - c
  refuse (maxReserve.natAbs < sellAfter) .inputTooLarge
  let otherAfter := otherSide - c
  let gross ← okOr (tryI64 c) .overflow
  let split ← (applyFee gross fee).mapError AmmError.ofMoney
  let own ← okOr (tryI64 sellAfter) .overflow
  let opposite ← okOr (tryI64 otherAfter) .overflow
  pure { collateralOut := split.net, fee := split.fee,
         poolAfter := Pool.ofReserves side own opposite pool.fee }

/-- The effect of a sell: the shares enter the sold side, both reserves give up
the gross proceeds, and the product does not shrink. -/
structure Sold (pool : Pool) (side : Side) (shares : Int) (q : SellQuote) : Prop where
  out_nonneg : 0 ≤ q.collateralOut
  fee_nonneg : 0 ≤ q.fee
  gross_pos : 0 < q.collateralOut + q.fee
  own : q.poolAfter.reserve side = pool.reserve side + shares - (q.collateralOut + q.fee)
  opposite : q.poolAfter.reserve side.other =
    pool.reserve side.other - (q.collateralOut + q.fee)
  product_le : pool.product ≤ q.poolAfter.product
  valid : q.poolAfter.Valid
  shares_pos : 0 < shares
  shares_le : shares ≤ maxAmount

/-- Burning `c` complete sets after `s` shares came in does not shrink the product. -/
abbrev SellKeeps (own opposite s c : Int) : Prop := own * opposite ≤ (own + s - c) * (opposite - c)

/-- The estimate of the burn: the floored smaller root, from the floored square root. -/
def sellRoot (a b s : Nat) : Nat :=
  ((a + s + b) - isqrtU128 ((a + s + b) * (a + s + b) - s * b * 4)) / 2

/-- The discriminant of the burn, and a burn keeps the product outside its roots. -/
theorem sellKeeps_iff (a b s c : Int) :
    SellKeeps a b s c ↔ (a + s - b) * (a + s - b) + 4 * (a * b) ≤
      (a + s + b - 2 * c) * (a + s + b - 2 * c) := by
  have hgap : (a + s + b - 2 * c) * (a + s + b - 2 * c) -
      ((a + s - b) * (a + s - b) + 4 * (a * b)) =
      4 * ((a + s - c) * (b - c) - a * b) := by ring
  rw [SellKeeps]
  omega

/-- The bracket of the square root: `2 · root` is `a + s + b - q` up to one, where `q` is the
floored root of the discriminant. -/
theorem sellRoot_spec (a b s : Nat) :
    ∃ q : Nat, 2 * sellRoot a b s + q ≤ a + s + b ∧ a + s + b ≤ 2 * sellRoot a b s + q + 1 ∧
      (q * q : Int) ≤ (a + s - b) * (a + s - b) + 4 * (a * b) ∧
      ((a + s - b) * (a + s - b) + 4 * (a * b) : Int) < (q + 1) * (q + 1) := by
  have hle : s * b * 4 ≤ (a + s + b) * (a + s + b) := by nlinarith [sq_nonneg ((s : Int) - b)]
  have hcast : (((a + s + b) * (a + s + b) - s * b * 4 : Nat) : Int) =
      (a + s - b) * (a + s - b) + 4 * (a * b) := by
    rw [Nat.cast_sub hle]
    push_cast
    ring
  have hq : isqrtU128 ((a + s + b) * (a + s + b) - s * b * 4) ≤ a + s + b := by
    rw [isqrtU128_eq_sqrt]
    exact (Nat.sqrt_le_sqrt (Nat.sub_le _ _)).trans_eq (Nat.sqrt_eq _)
  refine ⟨isqrtU128 ((a + s + b) * (a + s + b) - s * b * 4), ?_, ?_, ?_, ?_⟩
  · rw [sellRoot]
    omega
  · rw [sellRoot]
    omega
  · rw [← hcast, isqrtU128_eq_sqrt]
    exact_mod_cast Nat.sqrt_le _
  · rw [← hcast, isqrtU128_eq_sqrt]
    exact_mod_cast Nat.lt_succ_sqrt _

/-- A burn below the opposite reserve that keeps the product is at most the estimate. -/
theorem le_sellRoot {c : Int} (ha : 0 < a) (hb : 0 < b) (hc : c < b) (hkeep : SellKeeps a b s c) :
    c ≤ sellRoot a b s := by
  obtain ⟨q, -, hlow, hsq, -⟩ := sellRoot_spec a b s
  have hpos : 0 < (a + s - c : Int) := by
    have hab : (0 : Int) < a * b := by exact_mod_cast Nat.mul_pos ha hb
    exact pos_of_mul_pos_left (hab.trans_le hkeep) (by omega)
  rw [sellKeeps_iff] at hkeep
  have hroot : (q : Int) ≤ a + s + b - 2 * c := by
    by_contra hgt
    have := mul_self_lt_mul_self (show (0 : Int) ≤ a + s + b - 2 * c by omega) (not_le.1 hgt)
    omega
  omega

/-- One below the estimate keeps the product: the correction takes at most one turn. -/
theorem sellKeeps_sub_one (a b s : Nat) : SellKeeps a b s (sellRoot a b s - 1) := by
  obtain ⟨q, hlow, -, -, hsq⟩ := sellRoot_spec a b s
  rw [sellKeeps_iff]
  have := mul_self_le_mul_self (show (0 : Int) ≤ q + 1 by omega)
    (show (q + 1 : Int) ≤ a + s + b - 2 * (sellRoot a b s - 1) by omega)
  omega

/-- The estimate passes neither the opposite reserve nor what the pool then holds of the sold
side, so no subtraction of the correction goes below zero. -/
theorem sellRoot_le (a b s : Nat) : sellRoot a b s ≤ b ∧ sellRoot a b s ≤ a + s := by
  obtain ⟨q, hlow, -, -, hsq⟩ := sellRoot_spec a b s
  have hab : (0 : Int) ≤ a * b := by positivity
  have habs : |(a + s - b : Int)| < |(q + 1 : Int)| := abs_lt_iff_mul_self_lt.2 (by omega)
  rw [abs_of_nonneg (show (0 : Int) ≤ q + 1 by omega), abs_lt] at habs
  omega

/-- The estimate stays below the opposite reserve exactly while the sold reserve is small. -/
theorem sellRoot_lt_iff (a b s : Nat) : sellRoot a b s < b ↔ (a + s : Int) < b + 2 * (a * b) := by
  obtain ⟨q, hlow, hhigh, hsq, hsq'⟩ := sellRoot_spec a b s
  have hab : (0 : Int) ≤ a * b := by positivity
  have hsquare : ((a + s - b + 1) * (a + s - b + 1) : Int) =
      (a + s - b) * (a + s - b) + 2 * (a + s - b) + 1 := by ring
  constructor
  · intro hlt
    by_cases hneg : (a + s - b + 1 : Int) ≤ 0
    · omega
    · have := mul_self_le_mul_self (by omega) (show (a + s - b + 1 : Int) ≤ q by omega)
      omega
  · intro hlt
    have hroot : (a + s - b + 1 : Int) < q + 1 :=
      lt_of_mul_self_lt_mul_self₀ (by omega) (by omega)
    omega

def bestBurn (a b s : Nat) : Nat :=
  if SellKeeps a b s (sellRoot a b s) then sellRoot a b s else sellRoot a b s - 1

theorem bestBurn_le : bestBurn a b s ≤ sellRoot a b s := by
  unfold bestBurn
  split_ifs <;> omega

theorem isGreatest_bestBurn (ha : 0 < a) (hb : 0 < b) :
    IsGreatest {c : Int | c < b ∧ SellKeeps a b s c} (bestBurn a b s) := by
  have hab : (0 : Int) < a * b := by exact_mod_cast Nat.mul_pos ha hb
  have hle := (sellRoot_le a b s).1
  have hprev := sellKeeps_sub_one a b s
  unfold bestBurn
  split_ifs with hkeep
  · refine ⟨⟨lt_of_le_of_ne (by exact_mod_cast hle) fun heq => ?_, hkeep⟩, fun c hc => ?_⟩
    · rw [SellKeeps, heq, sub_self, mul_zero] at hkeep
      omega
    · exact le_sellRoot ha hb hc.1 hc.2
  · have hpos : 0 < sellRoot a b s := by
      refine Nat.pos_of_ne_zero fun hzero => hkeep ?_
      rw [SellKeeps, hzero]
      push_cast
      nlinarith
    rw [Nat.cast_sub hpos, Nat.cast_one]
    refine ⟨⟨by omega, hprev⟩, fun c hc => ?_⟩
    have hc' := le_sellRoot ha hb hc.1 hc.2
    have hne : c ≠ sellRoot a b s := fun heq => hkeep (heq ▸ hc.2)
    omega

theorem sellKeeps_natCast (hs : c ≤ a + s) (hb : c ≤ b) :
    SellKeeps a b s c ↔ a * b ≤ (a + s - c) * (b - c) := by
  rw [SellKeeps, ← Nat.cast_add, ← Nat.cast_sub hs, ← Nat.cast_sub hb]
  exact_mod_cast Iff.rfl

theorem burnDown_succ (hfit : FitsU128 ((a + s) * b)) (hs : c + 1 ≤ a + s) (hb : c + 1 ≤ b) :
    burnDown (a + s) b (a * b) (c + 1) =
      if SellKeeps a b s (c + 1 : Nat) then .ok (c + 1) else burnDown (a + s) b (a * b) c := by
  have hmul : (a + s - (c + 1)) * (b - (c + 1)) ≤ (a + s) * b :=
    Nat.mul_le_mul (Nat.sub_le _ _) (Nat.sub_le _ _)
  rw [burnDown, checkedU128_of_fits (hmul.trans_lt hfit), okOr_some, ok_bind]
  simp only [sellKeeps_natCast hs hb]

theorem burnDown_root (hfit : FitsU128 ((a + s) * b)) :
    burnDown (a + s) b (a * b) (sellRoot a b s) =
      if bestBurn a b s = 0 then .error .amountTooSmall else .ok (bestBurn a b s) := by
  obtain ⟨hb, hs⟩ := sellRoot_le a b s
  have hprev := sellKeeps_sub_one a b s
  rw [bestBurn]
  cases hroot : sellRoot a b s with
  | zero => simp [burnDown]
  | succ r =>
    rw [hroot] at hb hs hprev
    rw [burnDown_succ hfit hs hb]
    by_cases hkeep : SellKeeps a b s (r + 1 : Nat)
    · rw [if_pos hkeep, if_pos hkeep, if_neg r.succ_ne_zero]
    · rw [if_neg hkeep, if_neg hkeep]
      cases r with
      | zero => simp [burnDown]
      | succ r =>
        rw [burnDown_succ hfit (by omega) (by omega), if_pos (by simpa using hprev)]
        simp

/-- No checked step of a sell in range can overflow: what is left to refuse is the drain, the
empty burn, the cap and the fee rate. -/
theorem quoteSell_eq (hv : pool.Valid) (hpos : 0 < s) (hmax : shares ≤ maxAmount)
    (hra : pool.reserve side = a) (hrb : pool.reserve side.other = b) (hs : shares = s) :
    quoteSell pool side shares fee = (do
      refuse (b ≤ sellRoot a b s) .drainsPool
      refuse (bestBurn a b s = 0) .amountTooSmall
      refuse (maxReserve.natAbs < a + s - bestBurn a b s) .inputTooLarge
      refuse (10000 < fee) .inputTooLarge
      let c := bestBurn a b s
      pure { collateralOut := netOf c fee, fee := c - netOf c fee
             poolAfter := Pool.ofReserves side (a + s - c : Nat) (b - c : Nat) pool.fee }) := by
  have hcap := hv.reserve_le
  have hpos' := hv.reserve_pos
  have ha := hra ▸ hpos' side
  have hb := hrb ▸ hpos' side.other
  have ha' := hra ▸ hcap side
  have hb' := hrb ▸ hcap side.other
  subst hs
  have hmax' := not_lt.2 hmax
  simp only [maxAmount, maxReserve] at hmax ha' hb'
  have hmul : ∀ x y : Nat, x ≤ 3000000000000000 → y ≤ 3000000000000000 →
      x * y ≤ 3000000000000000 * 3000000000000000 := fun x y => Nat.mul_le_mul
  have hab := hmul a b (by omega) (by omega)
  have hsb := hmul s b (by omega) (by omega)
  have hhb := hmul (a + s) b (by omega) (by omega)
  have hBB := hmul (a + s + b) (a + s + b) (by omega) (by omega)
  have hdisc : s * b * 4 ≤ (a + s + b) * (a + s + b) := by nlinarith [sq_nonneg ((s : Int) - b)]
  have hbest := isGreatest_bestBurn (s := s) (Int.natCast_pos.1 ha) (Int.natCast_pos.1 hb)
  have hburn : bestBurn a b s < b := by exact_mod_cast hbest.1.1
  simp only [quoteSell, refuse_neg (show ¬(s : Int) ≤ 0 by omega),
    refuse_neg hmax', ok_bind, hra, hrb, Int.natAbs_natCast,
    checkedU128_of_fits (show FitsU128 (a * b) by omega),
    checkedU128_of_fits (show FitsU128 (a + s) by omega),
    checkedU128_of_fits (show FitsU128 (a + s + b) by omega),
    checkedU128_of_fits (show FitsU128 (s * b) by omega),
    checkedU128_of_fits (show FitsU128 (s * b * 4) by omega),
    checkedU128_of_fits (show FitsU128 ((a + s + b) * (a + s + b)) by omega),
    okOr_some, checkedSub_of_le hdisc,
    show (a + s + b - isqrtU128 ((a + s + b) * (a + s + b) - s * b * 4)) / 2 = sellRoot a b s from
      rfl, burnDown_root (show FitsU128 ((a + s) * b) by omega)]
  by_cases hnone : bestBurn a b s = 0
  · simp only [if_pos hnone, refuse_pos hnone, error_bind]
  · simp only [if_neg hnone, refuse_neg hnone, ok_bind,
      tryI64_of_fits (fitsI64_natCast (show bestBurn a b s ≤ _ by omega)),
      tryI64_of_fits (fitsI64_natCast (show a + s - bestBurn a b s ≤ _ by omega)),
      tryI64_of_fits (fitsI64_natCast (show b - bestBurn a b s ≤ _ by omega)), okOr_some]
    by_cases hfee : 10000 < fee
    · have hrefused : applyFee (bestBurn a b s) fee = .error .feeTooHigh := by
        rw [applyFee, refuse_neg (by omega), ok_bind, refuse_pos hfee, error_bind]
      simp only [hrefused, refuse_pos hfee, error_bind, Except.mapError, AmmError.ofMoney]
    · have hsplit := applyFee_ok (Int.natCast_nonneg (bestBurn a b s))
        (fitsI64_natCast (by omega)) (not_lt.1 hfee)
      simp only [hsplit, refuse_neg hfee, ok_bind, Except.mapError]

/-- A successful sell burns the most that keeps the product and splits the fee off the burn. -/
theorem quoteSell_ok (hv : pool.Valid) (h : quoteSell pool side shares fee = .ok q) :
    0 < shares ∧ shares ≤ maxAmount ∧ fee ≤ 10000 ∧ ∃ c, 0 < c ∧
      IsGreatest {c | c < pool.reserve side.other ∧
        SellKeeps (pool.reserve side) (pool.reserve side.other) shares c} c ∧
      pool.reserve side + shares - c ≤ maxReserve ∧
      q = { collateralOut := netOf c fee, fee := c - netOf c fee
            poolAfter := Pool.ofReserves side (pool.reserve side + shares - c)
              (pool.reserve side.other - c) pool.fee } := by
  obtain ⟨hpos, hmax⟩ : 0 < shares ∧ shares ≤ maxAmount := by
    simp only [quoteSell, ok_iff] at h
    obtain ⟨-, hpos, -, hmax, -⟩ := h
    exact ⟨not_le.1 hpos, not_lt.1 hmax⟩
  obtain ⟨a, hra, ha, -⟩ := hv.exists_nat side
  obtain ⟨b, hrb, hb, -⟩ := hv.exists_nat side.other
  obtain ⟨s, rfl⟩ := Int.eq_ofNat_of_zero_le hpos.le
  have hbest := isGreatest_bestBurn (s := s) ha hb
  have hheld : bestBurn a b s ≤ a + s := bestBurn_le.trans (sellRoot_le a b s).2
  have hlt : bestBurn a b s < b := by exact_mod_cast hbest.1.1
  rw [quoteSell_eq hv (by omega) hmax hra hrb rfl] at h
  simp only [ok_iff] at h
  obtain ⟨-, -, -, hnone, -, hcap, -, hfee, rfl⟩ := h
  rw [hra, hrb]
  refine ⟨hpos, hmax, not_lt.1 hfee, bestBurn a b s, by omega, hbest, ?_, ?_⟩
  · simp only [maxReserve] at hcap ⊢
    omega
  · rw [Nat.cast_sub hheld, Nat.cast_sub hlt.le, Nat.cast_add]

theorem quoteSell_spec (hv : pool.Valid) (h : quoteSell pool side shares fee = .ok q) :
    Sold pool side shares q := by
  obtain ⟨hpos, hmax, hfee, c, hc, ⟨⟨hlt, hkeep⟩, -⟩, hcap, rfl⟩ := quoteSell_ok hv h
  have hown := hv.reserve_pos side
  have hopp := hv.reserve_le side.other
  have hheld : 0 < pool.reserve side + shares - c :=
    pos_of_mul_pos_left ((mul_pos hown (hv.reserve_pos side.other)).trans_le hkeep) (by omega)
  exact {
    out_nonneg := netOf_nonneg hc.le hfee
    fee_nonneg := sub_nonneg.2 (netOf_le hc.le fee)
    gross_pos := by simpa using hc
    own := by simp
    opposite := by simp
    product_le := by
      rwa [Pool.product_eq _ side, Pool.product_eq _ side, Pool.reserve_ofReserves,
        Pool.reserve_other_ofReserves]
    valid := by
      refine Pool.valid_of_reserves side ?_ ?_ ?_ <;>
        simp only [Pool.reserve_ofReserves, Pool.reserve_other_ofReserves, Pool.fee_ofReserves]
      · omega
      · omega
      · exact hv.fee_le
    shares_pos := hpos
    shares_le := hmax }

end Opinions.Domain.Amm
