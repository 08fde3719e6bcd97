import Opinions.Domain.Amm

/-! Settlement arithmetic (`domain/src/resolution.rs`). Every outstanding YES and
NO share redeems at its side's value, floored per holding, and the floors
accumulate into dust. A list whose two side totals each equal the escrow
settles: the payouts and the dust are exactly the escrow, and the dust is less
than the number of holdings. -/

namespace Opinions.Domain.Resolution

open Lib.Checked Lib.Result Domain.Amm

variable {α : Type}

structure Settlement (α : Type) where
  payouts : List (α × Int)
  dust : Int

inductive ResolutionError
  | overflow
  | conservationViolated (expected got : Int)
  | actualOutOfRange
  | holdingsIncomplete (minted presented : Int)
  deriving DecidableEq

structure HoldingLine (α : Type) where
  account : α
  side : Side
  shares : Int
  deriving DecidableEq

structure Redemption where
  yes : Int
  no : Int

def Redemption.of (r : Redemption) : Side → Int
  | .yes => r.yes
  | .no => r.no

def redemptions (actualYesBps : Nat) : Except ResolutionError Redemption := do
  refuse (10000 < actualYesBps) .actualOutOfRange
  let yes : Int := actualYesBps * 100
  pure { yes := yes, no := 1000000 - yes }

def positionPayout (shares redemptionPerShare : Int) : Except ResolutionError Int := do
  refuse (shares < 0 ∨ redemptionPerShare < 0) .overflow
  okOr (tryI64 (shares * redemptionPerShare / 1000000)) .overflow

/-- Count one holding in its side's checked total. -/
def addPresented (presented : Side → Int) (h : HoldingLine α) :
    Except ResolutionError (Side → Int) := do
  refuse (h.shares < 0) .overflow
  let total ← okOr (checkedI128 (presented h.side + h.shares)) .overflow
  pure (Function.update presented h.side total)

/-- A side total that is not the minted number of sets is an error. -/
def requireComplete (minted presented : Int) : Except ResolutionError Unit :=
  if presented = minted then .ok ()
  else do
    let shown ← okOr (tryI64 presented) .overflow
    .error (.holdingsIncomplete minted shown)

/-- The payout loop: the payouts in order and their checked running sum. -/
def payHoldings (r : Redemption) (holdings : List (HoldingLine α)) :
    Except ResolutionError (List (α × Int) × Int) :=
  holdings.foldlM (fun (acc : List (α × Int) × Int) h => do
    let payout ← positionPayout h.shares (r.of h.side)
    let sum ← okOr (checkedI128 (acc.2 + payout)) .overflow
    pure (acc.1 ++ [(h.account, payout)], sum)) ([], 0)

def settleMarket (holdings : List (HoldingLine α)) (actualYesBps : Nat) (escrow : Int) :
    Except ResolutionError (Settlement α) := do
  let r ← redemptions actualYesBps
  refuse (escrow < 0) .overflow
  let presented ← holdings.foldlM addPresented fun _ => 0
  requireComplete escrow (presented .yes)
  requireComplete escrow (presented .no)
  let paid ← payHoldings r holdings
  let dust ← okOr (tryI64 (escrow - paid.2)) .overflow
  let recombined ← okOr (checkedI128 (paid.2 + (escrow - paid.2))) .overflow
  if recombined ≠ escrow ∨ (holdings.length : Int) ≤ escrow - paid.2 then do
    let got ← okOr (tryI64 recombined) .overflow
    .error (.conservationViolated escrow got)
  else
    pure { payouts := paid.1, dust := dust }

def sideTotal (side : Side) (holdings : List (HoldingLine α)) : Int :=
  (holdings.map fun h => if h.side = side then h.shares else 0).sum

@[simp] theorem sideTotal_nil (side : Side) : sideTotal side ([] : List (HoldingLine α)) = 0 := rfl

@[simp] theorem sideTotal_cons (side : Side) (h : HoldingLine α) (holdings : List (HoldingLine α)) :
    sideTotal side (h :: holdings) =
      (if h.side = side then h.shares else 0) + sideTotal side holdings := rfl

theorem sideTotal_append (side : Side) (xs ys : List (HoldingLine α)) :
    sideTotal side (xs ++ ys) = sideTotal side xs + sideTotal side ys := by
  simp [sideTotal]

variable {h : HoldingLine α}

section NonNegative

variable {holdings : List (HoldingLine α)} (hnn : ∀ h ∈ holdings, 0 ≤ h.shares)
include hnn

theorem sideTotal_nonneg (side : Side) : 0 ≤ sideTotal side holdings := by
  induction holdings with
  | nil => exact le_rfl
  | cons h holdings ih =>
    have hh := hnn h List.mem_cons_self
    have := ih fun y hy => hnn y (List.mem_cons_of_mem h hy)
    rw [sideTotal_cons]
    split_ifs <;> omega

theorem shares_le_sideTotal (hh : h ∈ holdings) : h.shares ≤ sideTotal h.side holdings := by
  induction holdings with
  | nil => simp at hh
  | cons x holdings ih =>
    have htail : ∀ y ∈ holdings, 0 ≤ y.shares := fun y hy => hnn y (List.mem_cons_of_mem x hy)
    have hx := hnn x List.mem_cons_self
    rw [sideTotal_cons]
    rcases List.mem_cons.1 hh with rfl | hh
    · have := sideTotal_nonneg htail h.side
      rw [if_pos rfl]
      omega
    · have := ih htail hh
      split_ifs <;> omega

theorem foldlM_addPresented {p : Side → Int} (hp : ∀ side, 0 ≤ p side)
    (hfit : ∀ side, FitsI128 (p side + sideTotal side holdings)) :
    holdings.foldlM addPresented p = .ok fun side => p side + sideTotal side holdings := by
  induction holdings generalizing p with
  | nil => simp [pure, Except.pure]
  | cons h holdings ih =>
    have htail : ∀ y ∈ holdings, 0 ≤ y.shares := fun y hy => hnn y (List.mem_cons_of_mem h hy)
    have hh := hnn h List.mem_cons_self
    have hsum : ∀ side, Function.update p h.side (p h.side + h.shares) side +
        sideTotal side holdings = p side + sideTotal side (h :: holdings) := by
      intro side
      rw [sideTotal_cons, ← add_assoc]
      by_cases hs : side = h.side
      · subst hs
        rw [Function.update_self, if_pos rfl]
      · rw [Function.update_of_ne hs, if_neg (Ne.symm hs), add_zero]
    have hadd : addPresented p h = .ok (Function.update p h.side (p h.side + h.shares)) := by
      have hle := hfit h.side
      have hpos := hp h.side
      have := sideTotal_nonneg htail h.side
      rw [sideTotal_cons, if_pos rfl] at hle
      rw [addPresented, refuse_neg (by omega), ok_bind,
        checkedI128_of_fits (by constructor <;> omega)]
      rfl
    rw [List.foldlM_cons, hadd, ok_bind, ih htail ?_ fun side => by rw [hsum]; exact hfit side]
    · simp only [hsum]
    · intro side
      have := hp side
      by_cases hs : side = h.side
      · subst hs
        rw [Function.update_self]
        omega
      · rwa [Function.update_of_ne hs]

end NonNegative

def payout (r : Redemption) (h : HoldingLine α) : Int := h.shares * r.of h.side / 1000000

def payoutSum (r : Redemption) (holdings : List (HoldingLine α)) : Int :=
  (holdings.map (payout r)).sum

/-- Redemption values that split a whole share between the two sides. -/
structure Redemption.Complementary (r : Redemption) : Prop where
  nonneg : ∀ side, 0 ≤ r.of side
  whole : r.yes + r.no = 1000000

variable {r : Redemption}

theorem Redemption.Complementary.le (hr : r.Complementary) (side : Side) : r.of side ≤ 1000000 := by
  have hy := hr.nonneg .yes
  have hn := hr.nonneg .no
  have hw := hr.whole
  cases side <;> simp only [Redemption.of] at * <;> omega

variable {bps : Nat}

theorem redemptions_complementary (h : bps ≤ 10000) :
    ∃ r, redemptions bps = .ok r ∧ r.Complementary := by
  refine ⟨{ yes := bps * 100, no := 1000000 - bps * 100 }, ?_, fun side => ?_, ?_⟩
  · rw [redemptions, refuse_neg (by omega)]
    rfl
  · cases side <;> simp only [Redemption.of] <;> omega
  · dsimp only
    omega

theorem payout_bounds (hr : r.Complementary) (hh : 0 ≤ h.shares) :
    0 ≤ payout r h ∧ payout r h ≤ h.shares := by
  have h0 := hr.nonneg h.side
  have h1 := hr.le h.side
  have hprod : 0 ≤ h.shares * r.of h.side := mul_nonneg hh h0
  have hle : h.shares * r.of h.side ≤ h.shares * 1000000 := mul_le_mul_of_nonneg_left h1 hh
  unfold payout
  omega

/-- The redeemed value of all holdings, before flooring. -/
theorem redeemed_eq (r : Redemption) (holdings : List (HoldingLine α)) :
    (holdings.map fun h => h.shares * r.of h.side).sum =
      sideTotal .yes holdings * r.yes + sideTotal .no holdings * r.no := by
  induction holdings with
  | nil => simp
  | cons h holdings ih =>
    rw [List.map_cons, List.sum_cons, ih, sideTotal_cons, sideTotal_cons]
    cases hs : h.side <;> simp [Redemption.of] <;> ring

/-- Flooring each holding loses less than one unit per holding. -/
theorem floor_loss (r : Redemption) (holdings : List (HoldingLine α)) :
    1000000 * payoutSum r holdings ≤ (holdings.map fun h => h.shares * r.of h.side).sum ∧
    (holdings.map fun h => h.shares * r.of h.side).sum ≤
      1000000 * payoutSum r holdings + 999999 * holdings.length := by
  induction holdings with
  | nil => simp [payoutSum]
  | cons h holdings ih =>
    simp only [payoutSum, List.map_cons, List.sum_cons, List.length_cons, payout] at ih ⊢
    push_cast
    omega

variable {escrow : Int} {holdings : List (HoldingLine α)}

theorem dust_bounds (hr : r.Complementary) (hne : holdings ≠ [])
    (hyes : sideTotal .yes holdings = escrow) (hno : sideTotal .no holdings = escrow) :
    0 ≤ escrow - payoutSum r holdings ∧ escrow - payoutSum r holdings < holdings.length := by
  obtain ⟨hlo, hhi⟩ := floor_loss r holdings
  have hlen := List.length_pos_iff.2 hne
  rw [redeemed_eq, hyes, hno, ← mul_add, hr.whole] at hlo hhi
  omega

theorem payoutSum_nonneg (hr : r.Complementary)
    (hnn : ∀ h ∈ holdings, 0 ≤ h.shares) : 0 ≤ payoutSum r holdings := by
  induction holdings with
  | nil => exact le_rfl
  | cons h holdings ih =>
    have hh := (payout_bounds hr (hnn h List.mem_cons_self)).1
    have := ih fun y hy => hnn y (List.mem_cons_of_mem h hy)
    simp only [payoutSum, List.map_cons, List.sum_cons] at this ⊢
    omega

theorem positionPayout_eq (hr : r.Complementary) (hh : 0 ≤ h.shares) (hfit : FitsI64 h.shares) :
    positionPayout h.shares (r.of h.side) = .ok (payout r h) := by
  have hb := payout_bounds hr hh
  have h0 := hr.nonneg h.side
  rw [positionPayout, refuse_neg (by omega), ok_bind, ← payout,
    tryI64_of_fits (by constructor <;> omega)]
  rfl

theorem payHoldings_eq (hr : r.Complementary)
    (hnn : ∀ h ∈ holdings, 0 ≤ h.shares) (hfit : ∀ h ∈ holdings, FitsI64 h.shares)
    (hsum : FitsI128 (payoutSum r holdings)) :
    payHoldings r holdings =
      .ok (holdings.map fun h => (h.account, payout r h), payoutSum r holdings) := by
  suffices hgen : ∀ (xs : List (HoldingLine α)) (acc : List (α × Int) × Int),
      (∀ h ∈ xs, 0 ≤ h.shares) → (∀ h ∈ xs, FitsI64 h.shares) → 0 ≤ acc.2 →
      FitsI128 (acc.2 + payoutSum r xs) →
      xs.foldlM (fun (acc : List (α × Int) × Int) h => do
        let payout ← positionPayout h.shares (r.of h.side)
        let sum ← okOr (checkedI128 (acc.2 + payout)) .overflow
        pure (acc.1 ++ [(h.account, payout)], sum)) acc =
      .ok (acc.1 ++ xs.map fun h => (h.account, payout r h), acc.2 + payoutSum r xs) by
    have := hgen holdings ([], 0) hnn hfit le_rfl (by simpa using hsum)
    simpa [payHoldings] using this
  intro xs
  induction xs with
  | nil => intro acc _ _ _ _; simp [payoutSum, pure, Except.pure]
  | cons h xs ih =>
    intro acc hnn hfit hacc hsum
    have hnn' : ∀ y ∈ xs, 0 ≤ y.shares := fun y hy => hnn y (List.mem_cons_of_mem h hy)
    have hpay := (payout_bounds hr (hnn h List.mem_cons_self)).1
    have htail := payoutSum_nonneg hr hnn'
    have hcons : payoutSum r (h :: xs) = payout r h + payoutSum r xs := rfl
    rw [hcons] at hsum ⊢
    rw [List.foldlM_cons, positionPayout_eq hr (hnn h List.mem_cons_self)
      (hfit h List.mem_cons_self), ok_bind,
      checkedI128_of_fits (x := acc.2 + payout r h) (by constructor <;> omega), okOr_some, ok_bind]
    change xs.foldlM _ (acc.1 ++ [(h.account, payout r h)], acc.2 + payout r h) = _
    rw [ih (acc.1 ++ [(h.account, payout r h)], acc.2 + payout r h) hnn'
      (fun y hy => hfit y (List.mem_cons_of_mem h hy)) (by dsimp only; omega)
      (by dsimp only; constructor <;> omega)]
    simp [add_assoc]

/-- A complete list of holdings settles, whatever the result. -/
theorem settleMarket_of_complete (hbps : bps ≤ 10000)
    (hfit : FitsI64 escrow) (hne : holdings ≠ []) (hnn : ∀ h ∈ holdings, 0 ≤ h.shares)
    (hcomplete : ∀ side, sideTotal side holdings = escrow) :
    ∃ r : Redemption, redemptions bps = .ok r ∧ r.Complementary ∧
      settleMarket holdings bps escrow =
        .ok { payouts := holdings.map fun h => (h.account, payout r h)
              dust := escrow - payoutSum r holdings } := by
  obtain ⟨r, hred, hr⟩ := redemptions_complementary hbps
  have hpos : 0 ≤ escrow := hcomplete .yes ▸ sideTotal_nonneg hnn .yes
  obtain ⟨hlo, hhi⟩ := dust_bounds hr hne (hcomplete .yes) (hcomplete .no)
  have hsum := payoutSum_nonneg hr hnn
  have hshares : ∀ h ∈ holdings, FitsI64 h.shares := by
    intro h hh
    have h1 := shares_le_sideTotal hnn hh
    have h2 := hnn h hh
    rw [hcomplete] at h1
    constructor <;> omega
  have hpresented : holdings.foldlM addPresented (fun _ => 0) = .ok fun _ => escrow := by
    rw [foldlM_addPresented hnn (fun _ => le_rfl) fun side => by
      rw [hcomplete]; constructor <;> omega]
    simp only [hcomplete, zero_add]
  refine ⟨r, hred, hr, ?_⟩
  have hpaid := payHoldings_eq hr hnn hshares (by constructor <;> omega)
  simp only [settleMarket, hred, ok_bind, refuse_neg (show ¬escrow < 0 by omega), hpresented,
    requireComplete, if_true, hpaid]
  rw [tryI64_of_fits (by constructor <;> omega), okOr_some, ok_bind,
    checkedI128_of_fits (by constructor <;> omega), okOr_some, ok_bind, if_neg (by omega)]
  rfl

theorem payHoldings_spec {paid : List (α × Int) × Int} (h : payHoldings r holdings = .ok paid) :
    paid.1.map Prod.fst = holdings.map HoldingLine.account ∧
      paid.2 = (paid.1.map Prod.snd).sum := by
  suffices hgen : ∀ (xs : List (HoldingLine α)) (acc : List (α × Int) × Int),
      xs.foldlM (fun (acc : List (α × Int) × Int) h => do
        let payout ← positionPayout h.shares (r.of h.side)
        let sum ← okOr (checkedI128 (acc.2 + payout)) .overflow
        pure (acc.1 ++ [(h.account, payout)], sum)) acc = .ok paid →
      acc.2 = (acc.1.map Prod.snd).sum →
      paid.1.map Prod.fst = acc.1.map Prod.fst ++ xs.map HoldingLine.account ∧
        paid.2 = (paid.1.map Prod.snd).sum by
    simpa using hgen holdings ([], 0) h rfl
  intro xs
  induction xs with
  | nil =>
    intro acc h hacc
    cases h
    exact ⟨by simp, hacc⟩
  | cons x xs ih =>
    intro acc h hacc
    simp only [List.foldlM_cons, checkedI128_eq_some, ok_iff] at h
    obtain ⟨_, ⟨payout, -, _, ⟨rfl, -⟩, rfl⟩, hrest⟩ := h
    obtain ⟨hfst, hsnd⟩ := ih _ hrest (by simp [hacc])
    exact ⟨by simpa using hfst, hsnd⟩

/-- Payouts in the order of the holdings, and what they leave of the escrow as dust. -/
theorem settleMarket_spec {st : Settlement α} (h : settleMarket holdings bps escrow = .ok st) :
    st.payouts.map Prod.fst = holdings.map HoldingLine.account ∧
      st.dust = escrow - (st.payouts.map Prod.snd).sum := by
  simp only [settleMarket, tryI64_eq_some, ok_iff] at h
  obtain ⟨r, -, _, -, _, -, _, -, _, -, paid, hpaid, dust, ⟨rfl, -⟩, recombined, -, h⟩ := h
  split_ifs at h
  · simp only [bind_eq_ok] at h
    obtain ⟨_, -, h⟩ := h
    cases h
  · cases h
    obtain ⟨hfst, hsnd⟩ := payHoldings_spec hpaid
    exact ⟨hfst, by rw [hsnd]⟩

end Opinions.Domain.Resolution
