import Opinions.Config.Proposal

/-! The economy policy that the committed entries spell out. Its four keys are in
the catalog, so an accepted patch can change their values but never their shape. -/

namespace Opinions.Config

open Lib.Result Domain.FeePolicy Model

/-- The policy a trade would be priced by if it read the committed entries. -/
def committedPolicy (db : ConfigDb) : Option RepConfig := do
  let caps ← priorI64Array db.entries "position_cap_micro_by_tier"
  let discounts ← priorI64Array db.entries "fee_discount_bp_by_tier"
  let minFee ← priorI64 db.entries "min_fee_bps"
  let window ← priorI64 db.entries "discount_flip_window_secs"
  pure { positionCapMicroByTier := caps, feeDiscountBpByTier := discounts.map Int.toNat
         minFeeBps := minFee.toNat, discountFlipWindowSecs := window.toNat }

/-- Two policies that agree wherever a trade of this tier reads them; the process's
cap may be the stricter one. -/
structure Agrees (rep policy : RepConfig) (tier : Nat) : Prop where
  minFee : rep.minFeeBps = policy.minFeeBps
  discount : rep.feeDiscountBpByTier.get (tierIndex tier) =
    policy.feeDiscountBpByTier.get (tierIndex tier)
  window : rep.discountFlipWindowSecs = policy.discountFlipWindowSecs
  cap : rep.positionCapMicroByTier.get (tierIndex tier) ≤
    policy.positionCapMicroByTier.get (tierIndex tier)

instance (rep policy : RepConfig) (tier : Nat) : Decidable (Agrees rep policy tier) :=
  decidable_of_iff
    (rep.minFeeBps = policy.minFeeBps ∧
      rep.feeDiscountBpByTier.get (tierIndex tier) =
        policy.feeDiscountBpByTier.get (tierIndex tier) ∧
      rep.discountFlipWindowSecs = policy.discountFlipWindowSecs ∧
      rep.positionCapMicroByTier.get (tierIndex tier) ≤
        policy.positionCapMicroByTier.get (tierIndex tier))
    ⟨fun ⟨a, b, c, d⟩ => ⟨a, b, c, d⟩, fun ⟨a, b, c, d⟩ => ⟨a, b, c, d⟩⟩

theorem ruleFor_positionCaps : ruleFor "position_cap_micro_by_tier" = some
    (entry "position_cap_micro_by_tier" (.twoPhase .finance) .nextTrade checkPositionCaps) := rfl

theorem ruleFor_discounts : ruleFor "fee_discount_bp_by_tier" = some
    (entry "fee_discount_bp_by_tier" (.twoPhase .finance) .nextTrade checkDiscounts) := rfl

theorem ruleFor_minFee : ruleFor "min_fee_bps" = some
    (entry "min_fee_bps" (.twoPhase .finance) .nextTrade checkMinFee) := rfl

theorem ruleFor_flipWindow : ruleFor "discount_flip_window_secs" = some
    (entry "discount_flip_window_secs" (.twoPhase .finance) .nextTrade checkFlipWindow) := rfl

theorem asIntegers_eq_ok {v : Value} {arr : Vector Int 5} (h : asIntegers v = .ok arr) :
    v.asI64Array5 = some arr := by
  cases v with
  | arr =>
    simp only [asIntegers, ok_iff] at h
    obtain ⟨_, -, h⟩ := h
    exact h
  | _ => exact absurd h (by simp [asIntegers])

variable {db : ConfigDb} {db' : ConfigDb} {now : Int} {object : Option Object}
  {times : MarketId → Option MarketTimes}

/-- A key whose rule accepts only readable values stays readable. -/
theorem ConfigEffect.isSome_lookup (h : ConfigEffect now times db db' object) {key : String}
    {rule : CatalogRule} (hrule : ruleFor key = some rule) {α : Type} {read : Value → Option α}
    (hcheck : ∀ v snap, rule.check key v snap = .ok () → (read v).isSome)
    (hold : ((lookup db.entries key).bind read).isSome) :
    ((lookup db'.entries key).bind read).isSome := by
  cases h with
  | kept hnone h => rwa [h]
  | patched written hobject haccepted =>
    rw [haccepted.entries]
    cases hv : lookup written.members key with
    | none => rwa [Option.none_or]
    | some v =>
      obtain ⟨rule', hrule', hok⟩ := haccepted.rules _ (mem_of_lookup hv)
      obtain rfl : rule' = rule := Option.mem_unique hrule' hrule
      simpa using hcheck v _ hok

theorem isSome_committedPolicy :
    (committedPolicy db).isSome ↔
      (priorI64Array db.entries "position_cap_micro_by_tier").isSome ∧
      (priorI64Array db.entries "fee_discount_bp_by_tier").isSome ∧
      (priorI64 db.entries "min_fee_bps").isSome ∧
      (priorI64 db.entries "discount_flip_window_secs").isSome := by
  simp only [committedPolicy, Option.isSome_iff_exists, Option.bind_eq_bind,
    Option.bind_eq_some_iff, Option.pure_def, Option.some.injEq]
  constructor
  · rintro ⟨_, caps, hcaps, discounts, hdiscounts, minFee, hmin, window, hwindow, -⟩
    exact ⟨⟨caps, hcaps⟩, ⟨discounts, hdiscounts⟩, ⟨minFee, hmin⟩, window, hwindow⟩
  · rintro ⟨⟨caps, hcaps⟩, ⟨discounts, hdiscounts⟩, ⟨minFee, hmin⟩, window, hwindow⟩
    exact ⟨_, caps, hcaps, discounts, hdiscounts, minFee, hmin, window, hwindow, rfl⟩

theorem ConfigEffect.isSome_committedPolicy (h : ConfigEffect now times db db' object)
    (hold : (committedPolicy db).isSome) : (committedPolicy db').isSome := by
  rw [Config.isSome_committedPolicy] at hold ⊢
  obtain ⟨hcaps, hdiscounts, hmin, hwindow⟩ := hold
  refine ⟨h.isSome_lookup ruleFor_positionCaps (fun v snap hok => ?_) hcaps,
    h.isSome_lookup ruleFor_discounts (fun v snap hok => ?_) hdiscounts,
    h.isSome_lookup ruleFor_minFee (fun v snap hok => ?_) hmin,
    h.isSome_lookup ruleFor_flipWindow (fun v snap hok => ?_) hwindow⟩
  · simp only [entry, checkPositionCaps, bind_eq_ok] at hok
    obtain ⟨arr, harr, -⟩ := hok
    rw [asIntegers_eq_ok harr]
    rfl
  · simp only [entry, checkDiscounts, bind_eq_ok] at hok
    obtain ⟨arr, harr, -⟩ := hok
    rw [asIntegers_eq_ok harr]
    rfl
  · simp only [entry, checkMinFee, checkStep, asInteger, ok_iff] at hok
    obtain ⟨n, hn, -⟩ := hok
    rw [hn]
    rfl
  · simp only [entry, checkFlipWindow, checkBetween, asInteger, ok_iff] at hok
    obtain ⟨n, hn, -⟩ := hok
    rw [hn]
    rfl

/-- The entries the ops migration seeds. -/
def seededEntries : Snapshot :=
  [("trade_fee_bps", .int 100), ("min_fee_bps", .int 10),
    ("discount_flip_window_secs", .int 3600),
    ("fee_discount_bp_by_tier", .arr [.int 0, .int 0, .int 10, .int 20, .int 30]),
    ("position_cap_micro_by_tier", .arr [.int 25000000, .int 50000000, .int 100000000, .int 250000000, .int 500000000]),
    ("rep_tier_thresholds_micro", .arr [.int 0, .int 200000, .int 400000, .int 600000, .int 800000]),
    ("rep_score_min_pot_micro", .int 50000000), ("seed_micro_daily", .int 500000000),
    ("seed_micro_flash", .int 100000000), ("daily_seed_budget_micro", .int 1000000000),
    ("hidden_window_secs", .int 300), ("min_votes_to_resolve_floor", .int 3),
    ("oi_floor_micro", .int 0), ("payout_hold_threshold_micro", .int 500000000),
    ("sweep_delay_secs", .int 180), ("max_votes_per_window", .int 30),
    ("vote_window_secs", .int 3600), ("integrity_burst_multiplier_ppm", .int 2000000),
    ("integrity_young_share_max_ppm", .int 500000),
    ("integrity_device_share_max_ppm", .int 600000),
    ("integrity_subnet_share_max_ppm", .int 600000),
    ("integrity_min_metadata_coverage_ppm", .int 500000), ("flash_cadence_secs", .int 3600),
    ("daily_slots", .int 2), ("feature_flash_markets", .bool true),
    ("feature_comments", .bool true), ("feature_referrals", .bool false),
    ("trading_paused", .bool false), ("faucet_per_call_cap_micro", .int 1000000000),
    ("remedial_credit_market_cap_micro", .int 500000000),
    ("remedial_credit_daily_cap_micro", .int 2000000000),
    ("receivable_outstanding_cap_micro", .int 10000000000),
    ("writeoff_per_item_cap_micro", .int 500000000),
    ("writeoff_daily_cap_micro", .int 2000000000), ("proposal_ttl_secs", .int 900),
    ("dual_control_delay_secs", .int 60)]

def seededConfig : ConfigDb :=
  { generation := 1, entries := seededEntries, generations := [1]
    changes := seededEntries.map fun m => (1, { key := m.1, old := none, new := m.2 })
    proposals := [] }

end Opinions.Config
