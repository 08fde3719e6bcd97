import Opinions.Config.Committed
import Opinions.Lib.Run

/-! The entries that accepted patches lead to from the seeds of both migrations.
Every entry passed its rule and the money keys keep their order. The discounts are
measured against the trade fee only when they are written themselves, so a falling
fee can leave them behind. -/

namespace Opinions.Config

open Lib.Result Lib.Rows Lib.Run Trade

def phase7SeedSnapshot : Snapshot :=
  [("deposit_kyc_tier", .int 1), ("withdraw_kyc_tier", .int 2),
    ("withdraw_min_micro", .int 5000000), ("withdraw_max_micro", .int 1000000000),
    ("withdraw_daily_limit_micro", .int 2000000000),
    ("withdraw_auto_approve_micro", .int 50000000),
    ("withdraw_dual_control_micro", .int 500000000), ("dest_warm_floor_micro", .int 100000000),
    ("dest_warm_age_hours", .int 72), ("dest_daily_limit_micro", .int 1000000000),
    ("hot_wallet_daily_limit_micro", .int 10000000000), ("deposit_confirmations", .int 32),
    ("pause_deposits", .bool false), ("pause_withdrawals", .bool false),
    ("credit_signup_micro", .int 5000000), ("credit_referral_referrer_micro", .int 5000000),
    ("credit_referral_referee_micro", .int 5000000),
    ("referral_min_notional_micro", .int 10000000),
    ("bonus_mint_daily_cap_micro", .int 500000000), ("bonus_structure", .str "real_money"),
    ("aml_deposit_velocity_micro_24h", .int 5000000000),
    ("aml_withdraw_velocity_micro_24h", .int 5000000000), ("aml_structuring_n", .int 4),
    ("aml_structuring_window_hours", .int 24),
    ("aml_structuring_threshold_micro", .int 500000000),
    ("aml_structuring_floor_micro", .int 100000000), ("shadow_trade_cap_micro", .int 25000000),
    ("shadow_deposit_cap_micro", .int 25000000), ("stuck_send_sla_secs", .int 900),
    ("stuck_screening_sla_secs", .int 3600), ("region_allowset_version", .int 1),
    ("withdraw_approve_daily_cap_micro", .int 5000000000),
    ("bonus_reserve_topup_daily_cap_micro", .int 1000000000)]

def publishedSeed : Snapshot := seededEntries ++ phase7SeedSnapshot

/-- Validate a patch and write its changes. -/
def accept (current : Snapshot) (patch : Value) : Except AppError Snapshot := do
  let changes ← validatePatch current patch
  pure (prospective current (changes.map fun c => (c.key, c.new)))

variable {current next snap : Snapshot} {patch : Value} {object : Object}

/-- What an accepted patch leaves. -/
structure Passed (current : Snapshot) (object : Object) (next : Snapshot) : Prop where
  rules : ∀ m ∈ object.members, ∃ rule, ruleFor m.1 = some rule ∧
    rule.check m.1 m.2 (deltaView current (prospective current object.members) m.1) = .ok ()
  entries : ∀ k, lookup next k = (lookup object.members k).or (lookup current k)
  crossKeys : checkP7CrossKeys next = .ok ()

theorem checkP7CrossKeys_congr (h : ∀ k, lookup snap k = lookup next k) :
    checkP7CrossKeys snap = checkP7CrossKeys next := by
  simp only [checkP7CrossKeys, priorI64, h]

theorem accept_spec (h : accept current patch = .ok next) :
    ∃ object, patch.asObject = some object ∧ Passed current object next := by
  simp only [accept, ok_iff] at h
  obtain ⟨changes, hchanges, rfl⟩ := h
  obtain ⟨object, hobject, hrules, hrows, hcross⟩ := validatePatch_spec hchanges
  simp only [patchObject, ok_iff] at hobject
  obtain ⟨object, hobject, _, -, rfl⟩ := hobject
  rw [hrows, changeRows_eq_changed]
  refine ⟨object, hobject, hrules, lookup_written object current, ?_⟩
  rw [← hcross]
  refine checkP7CrossKeys_congr fun k => ?_
  rw [lookup_written, lookup_prospective object.nodup]

/-- The value passed the rule of the key when it was written. -/
def Passes (key : String) (v : Value) : Prop :=
  ∃ rule view, ruleFor key = some rule ∧ rule.check key v view = .ok ()

structure Reached (snap : Snapshot) : Prop where
  present : ∀ k, (lookup publishedSeed k).isSome → (lookup snap k).isSome
  passes : ∀ k v, lookup snap k = some v → Passes k v
  crossKeys : checkP7CrossKeys snap = .ok ()

theorem reached_seed : Reached publishedSeed where
  present _ h := h
  passes k v h := by
    have hall : ∀ m ∈ publishedSeed, (ruleFor m.1).any
        (fun rule => decide (rule.check m.1 m.2 [] = .ok ())) = true := by decide +kernel
    obtain ⟨rule, hrule, hok⟩ := (Option.any_eq_true _ _).1 (hall _ (mem_of_lookup h))
    exact ⟨rule, [], hrule, of_decide_eq_true hok⟩
  crossKeys := by decide +kernel

theorem Passed.reached (h : Passed current object next) (hold : Reached current) :
    Reached next where
  present k hk := by simp [h.entries, hold.present k hk]
  passes k v hv := by
    rw [h.entries, Option.or_eq_some_iff] at hv
    rcases hv with hv | ⟨-, hv⟩
    · obtain ⟨rule, hrule, hok⟩ := h.rules _ (mem_of_lookup hv)
      exact ⟨rule, _, hrule, hok⟩
    · exact hold.passes k v hv
  crossKeys := h.crossKeys

theorem reached_run (patches : List Value) : Reached (run accept publishedSeed patches) := by
  refine run_preserves (fun patch _ s s' hs h => ?_) reached_seed
  obtain ⟨object, -, hpassed⟩ := accept_spec h
  exact hpassed.reached hs

/-- The value of a seeded key, with what its rule asked of it. -/
theorem Reached.value (h : Reached snap) (key : String) {rule : CatalogRule}
    (hrule : ruleFor key = some rule) (hkey : (lookup publishedSeed key).isSome) :
    ∃ v view, lookup snap key = some v ∧ rule.check key v view = .ok () := by
  obtain ⟨v, hv⟩ := Option.isSome_iff_exists.1 (h.present _ hkey)
  obtain ⟨rule', view, hrule', hok⟩ := h.passes key v hv
  obtain rfl : rule' = rule := Option.mem_unique hrule' hrule
  exact ⟨v, view, hv, hok⟩

/-! ### Discounts -/

/-- The discounts are in order and between zero and the trade fee. -/
def discountsWithinFee (snap : Snapshot) : Bool :=
  ∃ arr ∈ priorI64Array snap "fee_discount_bp_by_tier", ∃ fee ∈ priorI64 snap "trade_fee_bps",
    descends arr.toList = false ∧ ∀ d ∈ arr.toList, 0 ≤ d ∧ d ≤ fee

/-- A patch that writes the trade fee and not the discounts leaves the fee at or above
the committed discounts. -/
def coversDiscounts (current : Snapshot) (patch : Value) : Bool :=
  ∀ object ∈ patch.asObject, ∀ fee ∈ priorI64 object.members "trade_fee_bps",
    lookup object.members "fee_discount_bp_by_tier" = none →
      ∀ arr ∈ priorI64Array current "fee_discount_bp_by_tier", ∀ d ∈ arr.toList, d ≤ fee

theorem lookup_deltaView {k key : String} (h : k ≠ key) :
    lookup (deltaView current snap key) k = lookup snap k := by
  rw [deltaView]
  split
  · rw [lookup_upsert, if_neg h]
  · rw [lookup, find_filter_ne, if_neg h, lookup]

/-- Discounts that are written fit the fee the patch leaves. -/
theorem Passed.discounts_written (h : Passed current object next) {v : Value}
    (hv : lookup object.members "fee_discount_bp_by_tier" = some v) :
    ∃ arr ∈ v.asI64Array5, descends arr.toList = false ∧
      ∀ d ∈ arr.toList, 0 ≤ d ∧ d ≤ (priorI64 next "trade_fee_bps").getD 100 := by
  obtain ⟨rule, hrule, hok⟩ := h.rules _ (mem_of_lookup hv)
  obtain rfl := Option.mem_unique hrule ruleFor_discounts
  simp only [entry, checkDiscounts, monotoneNonDecreasing, bounded, forM_eq_ok, ok_iff] at hok
  obtain ⟨arr, harr, _, hbounds, _, hsorted, -⟩ := hok
  refine ⟨arr, asIntegers_eq_ok harr, by simpa using hsorted, fun d hd => ?_⟩
  have hd := hbounds d hd
  rw [priorI64, lookup_deltaView (by decide), lookup_prospective object.nodup, ← h.entries] at hd
  rw [priorI64]
  omega

theorem Passed.discountsWithinFee (h : Passed current object next) (hreached : Reached next)
    (hobject : patch.asObject = some object) (hcovers : coversDiscounts current patch)
    (hold : discountsWithinFee current) : discountsWithinFee next := by
  obtain ⟨v, view, hv, hok⟩ := hreached.value "trade_fee_bps" rfl rfl
  simp only [entry, checkTradeFee, checkStep, asInteger, ok_iff] at hok
  obtain ⟨fee, hfee, -⟩ := hok
  have hnext : priorI64 next "trade_fee_bps" = some fee := by rw [priorI64, hv]; exact hfee
  simp only [Config.discountsWithinFee, decide_eq_true_eq] at hold ⊢
  cases hw : lookup object.members "fee_discount_bp_by_tier" with
  | some =>
    obtain ⟨arr, harr, hsorted, hbounds⟩ := h.discounts_written hw
    refine ⟨arr, ?_, fee, hnext, hsorted, by simpa [hnext] using hbounds⟩
    rwa [priorI64Array, h.entries, hw]
  | none =>
    obtain ⟨arr, harr, old, hold, hsorted, hbounds⟩ := hold
    refine ⟨arr, ?_, fee, hnext, hsorted, fun d hd => ⟨(hbounds d hd).1, ?_⟩⟩
    · rwa [priorI64Array, h.entries, hw]
    · cases hf : lookup object.members "trade_fee_bps" with
      | some =>
        simp only [coversDiscounts, decide_eq_true_eq] at hcovers
        refine hcovers object hobject fee ?_ hw arr harr d hd
        rw [priorI64, h.entries, hf] at hnext
        rwa [priorI64, hf]
      | none =>
        rw [priorI64, h.entries, hf] at hnext
        have hsame : some fee = some old := hnext.symm.trans hold
        exact Option.some.inj hsame ▸ (hbounds d hd).2

theorem discounts_stay_within_fee {patches : List Value}
    (h : Along accept (fun s p => coversDiscounts s p = true) publishedSeed patches) :
    discountsWithinFee (run accept publishedSeed patches) = true := by
  refine (run_preserves_along (P := fun s => Reached s ∧ discountsWithinFee s = true)
    (fun s patch s' hs hcovers hok => ?_) ⟨reached_seed, by decide +kernel⟩ h).2
  obtain ⟨object, hobject, hpassed⟩ := accept_spec hok
  have hreached := hpassed.reached hs.1
  exact ⟨hreached, hpassed.discountsWithinFee hreached hobject hcovers hs.2⟩

theorem discounts_stay_within_fee_once :
    discountsWithinFee (run accept publishedSeed [.obj [("trade_fee_bps", .int 80)]]) = true :=
  discounts_stay_within_fee (by decide +kernel)

/-- Four patches of the fee alone, each within its step. -/
def falling : List Value :=
  [80, 60, 40, 20].map fun fee => .obj [("trade_fee_bps", .int fee)]

theorem falling_fee_passes_discounts :
    priorI64 (run accept publishedSeed falling) "trade_fee_bps" = some 20 ∧
      discountsWithinFee (run accept publishedSeed falling) = false := by decide +kernel

end Opinions.Config
