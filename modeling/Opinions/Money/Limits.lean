import Opinions.Config.Reachable
import Opinions.Money.Tables

/-! The money path's own reading of the config: `withdraw_limits` with
`validate_limits` (`adapters/src/pg/withdraw_tx.rs`) and `aml_policy`
(`adapters/src/pg/credit_tx.rs`). They check again, in their own words, what the
validator keeps, and refuse all money if it fails; from the published seed it never
does. -/

namespace Opinions.Money

open Config Lib.Result Lib.Run Store

/-- The standard library's parsers of an integer and of a Boolean. -/
structure Parsers where
  i64 : String → Option Int
  bool : String → Option Bool

/-- A present value of the type, or a text that spells one. -/
def configValue {α : Type} (read : Value → Option α) (parse : String → Option α) (what : String)
    (entries : Snapshot) (key : String) : Except StoreError α := do
  let value ← okOr (lookup entries key) (.invariant "withdraw config key missing")
  okOr ((read value).or (value.asStr.bind parse))
    (.backend ("withdraw config " ++ key ++ " is not " ++ what))

def configI64 (p : Parsers) : Snapshot → String → Except StoreError Int :=
  configValue Value.asI64 p.i64 "an integer"

def configBool (p : Parsers) : Snapshot → String → Except StoreError Bool :=
  configValue Value.asBool p.bool "a boolean"

def validateLimits (limits : WithdrawLimits) : Except StoreError Unit :=
  let autoValid : Prop := limits.autoApproveMicro = 0 ∨
    (limits.minMicro ≤ limits.autoApproveMicro ∧
      limits.autoApproveMicro < limits.destWarmFloorMicro ∧
      limits.autoApproveMicro ≤ limits.dualControlMicro)
  refuse (¬(0 < limits.minMicro ∧ autoValid ∧ limits.dualControlMicro ≤ limits.maxMicro ∧
      limits.maxMicro ≤ limits.destDailyMicro ∧ limits.destDailyMicro ≤ limits.dailyMicro ∧
      limits.dailyMicro ≤ limits.hotDailyMicro ∧ 0 < limits.destWarmAgeHours ∧
      (0 ≤ limits.withdrawKycTier ∧ limits.withdrawKycTier ≤ 2) ∧
      0 < limits.approveDailyCapMicro))
    (.invariant "invalid withdrawal limits")

def withdrawLimits (p : Parsers) (entries : Snapshot) : Except StoreError WithdrawLimits := do
  let limits : WithdrawLimits :=
    { minMicro := ← configI64 p entries "withdraw_min_micro"
      maxMicro := ← configI64 p entries "withdraw_max_micro"
      dailyMicro := ← configI64 p entries "withdraw_daily_limit_micro"
      autoApproveMicro := ← configI64 p entries "withdraw_auto_approve_micro"
      dualControlMicro := ← configI64 p entries "withdraw_dual_control_micro"
      destWarmFloorMicro := ← configI64 p entries "dest_warm_floor_micro"
      destWarmAgeHours := ← configI64 p entries "dest_warm_age_hours"
      destDailyMicro := ← configI64 p entries "dest_daily_limit_micro"
      hotDailyMicro := ← configI64 p entries "hot_wallet_daily_limit_micro"
      withdrawKycTier := ← configI64 p entries "withdraw_kyc_tier"
      pauseWithdrawals := ← configBool p entries "pause_withdrawals"
      approveDailyCapMicro := ← configI64 p entries "withdraw_approve_daily_cap_micro" }
  validateLimits limits
  pure limits

structure AmlPolicy where
  floorMicro : Int
  thresholdMicro : Int
  n : Int
  window : Int
  depositVelocityMicro24h : Int
  withdrawVelocityMicro24h : Int
  deriving DecidableEq

def amlPolicy (p : Parsers) (entries : Snapshot) : Except StoreError AmlPolicy := do
  let windowHours ← configI64 p entries "aml_structuring_window_hours"
  let policy : AmlPolicy :=
    { floorMicro := ← configI64 p entries "aml_structuring_floor_micro"
      thresholdMicro := ← configI64 p entries "aml_structuring_threshold_micro"
      n := ← configI64 p entries "aml_structuring_n"
      window := hours windowHours
      depositVelocityMicro24h := ← configI64 p entries "aml_deposit_velocity_micro_24h"
      withdrawVelocityMicro24h := ← configI64 p entries "aml_withdraw_velocity_micro_24h" }
  refuse (policy.floorMicro ≤ 0 ∨ policy.thresholdMicro ≤ policy.floorMicro ∨
      ¬(2 ≤ policy.n ∧ policy.n ≤ 100) ∨ ¬(1 ≤ windowHours ∧ windowHours ≤ 168) ∨
      policy.depositVelocityMicro24h ≤ 0 ∨ policy.withdrawVelocityMicro24h ≤ 0)
    (.invariant "invalid AML policy")
  pure policy

variable {snap : Snapshot}

/-- A key with a factor rule reads as an integer within its bounds. -/
theorem reads_factor (h : Reached snap) (p : Parsers) (key : String) {rule : CatalogRule}
    (hrule : ruleFor key = some rule) (hkey : (lookup publishedSeed key).isSome)
    {prior : String} {lo hi factor seed : Int}
    (hcheck : rule.check key = checkFactor prior lo hi factor seed key) :
    ∃ n, configI64 p snap key = .ok n ∧ priorI64 snap key = some n ∧ lo ≤ n ∧ n ≤ hi := by
  obtain ⟨v, view, hv, hok⟩ := h.value key hrule hkey
  simp only [hcheck, checkFactor, asInteger, bounded, ok_iff] at hok
  obtain ⟨n, hn, _, hbounds, -⟩ := hok
  refine ⟨n, ?_, by rw [priorI64, hv]; exact hn, by omega⟩
  simp only [configI64, configValue, hv, ok_iff]
  exact ⟨v, rfl, by rw [hn]; rfl⟩

theorem reads_pause (h : Reached snap) (p : Parsers) :
    ∃ b, configBool p snap "pause_withdrawals" = .ok b := by
  obtain ⟨v, view, hv, hok⟩ := h.value "pause_withdrawals" rfl rfl
  simp only [entry, checkBool, ok_iff] at hok
  obtain ⟨b, hb, -⟩ := hok
  simp only [configBool, configValue, hv, ok_iff]
  exact ⟨b, v, rfl, by rw [hb]; rfl⟩

theorem reached_withdrawLimits (h : Reached snap) (p : Parsers) :
    ∃ limits, withdrawLimits p snap = .ok limits := by
  obtain ⟨low, rlow, plow, hlow⟩ := reads_factor h p "withdraw_min_micro" rfl rfl rfl
  obtain ⟨high, rhigh, phigh, -⟩ := reads_factor h p "withdraw_max_micro" rfl rfl rfl
  obtain ⟨daily, rdaily, pdaily, -⟩ := reads_factor h p "withdraw_daily_limit_micro" rfl rfl rfl
  obtain ⟨auto, rauto, pauto, -⟩ := reads_factor h p "withdraw_auto_approve_micro" rfl rfl rfl
  obtain ⟨dual, rdual, pdual, -⟩ := reads_factor h p "withdraw_dual_control_micro" rfl rfl rfl
  obtain ⟨floor, rfloor, pfloor, -⟩ := reads_factor h p "dest_warm_floor_micro" rfl rfl rfl
  obtain ⟨age, rage, -, hage⟩ := reads_factor h p "dest_warm_age_hours" rfl rfl rfl
  obtain ⟨dest, rdest, pdest, -⟩ := reads_factor h p "dest_daily_limit_micro" rfl rfl rfl
  obtain ⟨hot, rhot, phot, -⟩ := reads_factor h p "hot_wallet_daily_limit_micro" rfl rfl rfl
  obtain ⟨tier, rtier, -, htier⟩ := reads_factor h p "withdraw_kyc_tier" rfl rfl rfl
  obtain ⟨cap, rcap, -, hcap⟩ :=
    reads_factor h p "withdraw_approve_daily_cap_micro" rfl rfl rfl
  obtain ⟨pause, rpause⟩ := reads_pause h p
  have hcross := h.crossKeys
  simp only [checkP7CrossKeys, plow, pauto, pfloor, pdual, phigh, pdest, pdaily, phot] at hcross
  refine ⟨⟨low, high, daily, auto, dual, floor, age, dest, hot, tier, pause, cap⟩, ?_⟩
  simp only [withdrawLimits, rlow, rhigh, rdaily, rauto, rdual, rfloor, rage, rdest, rhot, rtier,
    rpause, rcap, validateLimits, ok_iff, Except.ok.injEq, exists_eq_left', and_true, not_not]
  refine ⟨(), ?_⟩
  split at hcross
  all_goals
    simp only [ok_iff, not_not] at hcross
    omega

theorem reached_amlPolicy (h : Reached snap) (p : Parsers) :
    ∃ policy, amlPolicy p snap = .ok policy ∧ policy.n ≤ 100 ∧
      (0 < policy.depositVelocityMicro24h ∧ policy.depositVelocityMicro24h ≤ 1000000000000) ∧
      policy.withdrawVelocityMicro24h ≤ 1000000000000 := by
  obtain ⟨floor, rfloor, pfloor, -⟩ := reads_factor h p "aml_structuring_floor_micro" rfl rfl rfl
  obtain ⟨threshold, rthreshold, pthreshold, -⟩ :=
    reads_factor h p "aml_structuring_threshold_micro" rfl rfl rfl
  obtain ⟨n, rn, -, hn⟩ := reads_factor h p "aml_structuring_n" rfl rfl rfl
  obtain ⟨window, rwindow, -, hwindow⟩ :=
    reads_factor h p "aml_structuring_window_hours" rfl rfl rfl
  obtain ⟨deposits, rdeposits, -, hdeposits⟩ :=
    reads_factor h p "aml_deposit_velocity_micro_24h" rfl rfl rfl
  obtain ⟨withdrawals, rwithdrawals, -, hwithdrawals⟩ :=
    reads_factor h p "aml_withdraw_velocity_micro_24h" rfl rfl rfl
  have horder : 0 < floor ∧ floor < threshold := by
    have hcross := h.crossKeys
    simp only [checkP7CrossKeys, pfloor, pthreshold] at hcross
    split at hcross
    · split at hcross <;> simp only [ok_iff, not_not] at hcross <;> grind
    · simpa only [ok_iff, not_not, exists_const, true_and] using hcross
  refine ⟨⟨floor, threshold, n, hours window, deposits, withdrawals⟩, ?_, hn.2,
    ⟨lt_of_lt_of_le (by decide) hdeposits.1, hdeposits.2⟩, hwithdrawals.2⟩
  simp only [amlPolicy, rfloor, rthreshold, rn, rwindow, rdeposits, rwithdrawals, ok_iff,
    Except.ok.injEq, exists_eq_left', and_true]
  exact ⟨(), by omega⟩

/-- Accepted patches never close the money path. -/
theorem money_path_open (p : Parsers) (patches : List Value) :
    (∃ limits, withdrawLimits p (run accept publishedSeed patches) = .ok limits) ∧
      ∃ policy, amlPolicy p (run accept publishedSeed patches) = .ok policy := by
  obtain ⟨policy, hpolicy, -⟩ := reached_amlPolicy (reached_run patches) p
  exact ⟨reached_withdrawLimits (reached_run patches) p, policy, hpolicy⟩

end Opinions.Money
