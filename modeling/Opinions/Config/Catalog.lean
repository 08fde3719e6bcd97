import Opinions.Config.Policy
import Opinions.Lib.Result
import Opinions.Lib.Rows

/-! The config catalog of `application/src/ops/config.rs`: every key with its
write rule, its apply class and the check a new value must pass. A check reads
the snapshot the patch would give, with the key's own committed value in place
of the new one, so that step limits compare with what is committed. -/

namespace Opinions.Config

open Lib.Result Lib.Rows Model

inductive AdminRole
  | curator
  | ops
  | finance
  | superadmin
  deriving DecidableEq

/-- When a committed change becomes visible. -/
inductive ApplyClass
  | liveImmutable
  | nextTrade
  | newMarketOnly
  | immediateGlobal

/-- Who writes a key: directly, or through the two-phase proposal flow. -/
inductive WriteRule
  | direct (role : AdminRole)
  | twoPhase (role : AdminRole)

abbrev Snapshot := List (String × Value)

def lookup (snap : Snapshot) (key : String) : Option Value := (find Prod.fst key snap).map Prod.snd

abbrev Check := String → Value → Snapshot → Except String Unit

/-- A family's key ends in a colon and stands for every UUID after it. -/
structure CatalogRule where
  key : String
  pattern : Bool
  write : WriteRule
  applyClass : ApplyClass
  check : Check

def asInteger (v : Value) : Except String Int := okOr v.asI64 "expected an integer"

def asIntegers (v : Value) : Except String (Vector Int 5) :=
  match v with
  | .arr items => do
    refuse (items.length ≠ 5) "wrong array length"
    okOr v.asI64Array5 "expected integer entries"
  | _ => .error "expected an array"

def bounded (n lo hi : Int) : Except String Unit := refuse (n < lo ∨ hi < n) "out of bounds"

def priorI64 (snap : Snapshot) (key : String) : Option Int := (lookup snap key).bind Value.asI64

def priorI64Array (snap : Snapshot) (key : String) : Option (Vector Int 5) :=
  (lookup snap key).bind Value.asI64Array5

def saturatingMul (a b : Int) : Int :=
  max (-9223372036854775808) (min (a * b) 9223372036854775807)

def maxDelta (prior : Option Int) (new delta : Int) : Except String Unit :=
  refuse (∃ p ∈ prior, delta < |new - p|) "delta exceeds the per-apply limit"

def within2x (prior : Option Int) (new : Int) : Except String Unit :=
  refuse (∃ p ∈ prior, 0 < p ∧ (saturatingMul p 2 < new ∨ new < p.tdiv 2))
    "change exceeds 2x of the prior value"

/-- Zero is always reachable; from zero a value comes back up to its seed, and
otherwise one apply stays within the factor. A factor of one bounds only upwards. -/
def mulDelta (prior : Option Int) (new factor seed : Int) : Except String Unit :=
  match prior with
  | none => .ok ()
  | some p =>
    if new = 0 then .ok ()
    else if p = 0 then refuse (seed < new) "re-enable exceeds the seed baseline"
    else
      refuse (0 < p ∧ (saturatingMul p factor < new ∨ 1 < factor ∧ new < p.tdiv factor))
        "change exceeds the multiplicative per-apply limit"

/-- Some entry is followed by a smaller one. -/
def descends (items : List Int) : Bool := (items.zip items.tail).any fun w => decide (w.2 < w.1)

def monotoneNonDecreasing (arr : Vector Int 5) : Except String Unit :=
  refuse (descends arr.toList) "entries must be monotone non-decreasing"

def checkBetween (lo hi : Int) : Check := fun _ v _ => do
  let n ← asInteger v
  bounded n lo hi

def checkStep (prior : String) (lo hi delta : Int) : Check := fun _ v snap => do
  let n ← asInteger v
  bounded n lo hi
  maxDelta (priorI64 snap prior) n delta

def checkTwice (prior : String) (lo hi : Int) : Check := fun _ v snap => do
  let n ← asInteger v
  bounded n lo hi
  within2x (priorI64 snap prior) n

def checkFactor (prior : String) (lo hi factor seed : Int) : Check := fun _ v snap => do
  let n ← asInteger v
  bounded n lo hi
  mulDelta (priorI64 snap prior) n factor seed

def checkOwnFactor (lo hi factor seed : Int) : Check := fun k => checkFactor k lo hi factor seed k

def checkTradeFee : Check := checkStep "trade_fee_bps" 10 200 20

def checkMinFee : Check := checkStep "min_fee_bps" 0 50 10

def checkFlipWindow : Check := checkBetween 600 86400

/-- Entries between zero and the prospective trade fee, in order, each moving at
most ten basis points. -/
def checkDiscounts : Check := fun _ v snap => do
  let arr ← asIntegers v
  let base := (priorI64 snap "trade_fee_bps").getD 100
  arr.toList.forM fun entry => bounded entry 0 base
  monotoneNonDecreasing arr
  match priorI64Array snap "fee_discount_bp_by_tier" with
  | none =>
    .ok ()
  | some prior =>
    (prior.toList.zip arr.toList).forM fun w => maxDelta (some w.1) w.2 10

def publishedPositionCaps : Vector Int 5 :=
  #v[25000000, 50000000, 100000000, 250000000, 500000000]

def checkPositionCaps : Check := fun _ v _ => do
  let arr ← asIntegers v
  refuse (∃ i : Fin 5, arr.get i < publishedPositionCaps.get i) "cap below the published tier table"
  monotoneNonDecreasing arr

def checkTierThresholds : Check := fun _ v snap => do
  let arr ← asIntegers v
  monotoneNonDecreasing arr
  refuse (∃ prior ∈ priorI64Array snap "rep_tier_thresholds_micro",
      ∃ i : Fin 5, (prior.get i).tdiv 10 < |arr.get i - prior.get i|)
    "threshold moves more than 10% in one proposal"

def checkMinPot : Check := checkTwice "rep_score_min_pot_micro" 0 1000000000

def checkSeed : Check := fun k v snap => do
  let n ← asInteger v
  refuse (n ≤ 0) "seed must be positive"
  within2x (priorI64 snap k) n

def checkSeedBudget : Check := checkTwice "daily_seed_budget_micro" 1000000 100000000000

def checkHiddenWindow : Check := checkBetween 60 900

def checkMinVotesFloor : Check := fun _ v _ => do
  let n ← asInteger v
  refuse (n < 3) "below the published floor"

def checkOiFloor : Check := checkBetween 0 1000000000

def checkHoldThreshold : Check := checkTwice "payout_hold_threshold_micro" 1000000 10000000000

def checkSweepDelay : Check := checkTwice "sweep_delay_secs" 60 3600

def publishedMaxVotes : Int := 30

def checkMaxVotes : Check :=
  checkBetween (publishedMaxVotes.tdiv 2) ((publishedMaxVotes * 3).tdiv 2)

def publishedVoteWindow : Int := 3600

def checkVoteWindow : Check :=
  checkBetween (publishedVoteWindow.tdiv 2) ((publishedVoteWindow * 3).tdiv 2)

def integrityDefaults : List (String × Int) :=
  [("integrity_burst_multiplier_ppm", 2000000), ("integrity_young_share_max_ppm", 500000),
    ("integrity_device_share_max_ppm", 600000), ("integrity_subnet_share_max_ppm", 600000),
    ("integrity_min_metadata_coverage_ppm", 500000)]

/-- Within a fifth of the shipped default, whatever the current value is. -/
def checkIntegrityPpm : Check := fun k v _ => do
  let n ← asInteger v
  let published ← okOr (find Prod.fst k integrityDefaults) "unknown integrity knob"
  bounded n ((published.2 * 4).tdiv 5) ((published.2 * 6).tdiv 5)

def checkCadence : Check := checkBetween 900 86400

def checkDailySlots : Check := checkStep "daily_slots" 1 4 1

def checkBool : Check := fun _ v _ => do
  let _ ← okOr v.asBool "expected a boolean"
  pure ()

def checkFaucetCap : Check := checkTwice "faucet_per_call_cap_micro" 0 1000000000

def checkRemedialMarketCap : Check := checkBetween 0 500000000

def checkRemedialDailyCap : Check := checkBetween 0 2000000000

def checkReceivableCap : Check := checkBetween 0 1000000000000

def checkWriteoffItemCap : Check := checkBetween 0 500000000

def checkWriteoffDailyCap : Check := checkBetween 0 2000000000

def checkProposalTtl : Check := checkBetween 60 3600

def checkDualDelay : Check := checkBetween 0 86400

/-- Tiers only move down, except back up from zero to the seed. -/
def checkKycTier : Check := fun k =>
  checkOwnFactor 0 2 1 (if "deposit".toList <:+: k.toList then 1 else 2) k

def checkWithdrawMin : Check := checkFactor "withdraw_min_micro" 1000000 1000000000 10 5000000

def checkWithdrawMax : Check :=
  checkFactor "withdraw_max_micro" 1000000 1000000000000 10 1000000000

def checkWithdrawDaily : Check :=
  checkFactor "withdraw_daily_limit_micro" 1000000 1000000000000 10 2000000000

def checkAutoApprove : Check :=
  checkFactor "withdraw_auto_approve_micro" 0 1000000000 10 50000000

def checkDualControl : Check :=
  checkFactor "withdraw_dual_control_micro" 1000000 1000000000000 10 500000000

def checkWarmFloor : Check :=
  checkFactor "dest_warm_floor_micro" 1000000 1000000000 10 100000000

def checkWarmAge : Check := checkFactor "dest_warm_age_hours" 1 720 4 72

def checkDestDaily : Check :=
  checkFactor "dest_daily_limit_micro" 1000000 1000000000000 10 1000000000

def checkHotWallet : Check :=
  checkFactor "hot_wallet_daily_limit_micro" 1000000 10000000000000 4 10000000000

def checkConfirmations : Check := checkFactor "deposit_confirmations" 1 300 4 32

def checkCreditGrant : Check := checkOwnFactor 0 100000000 4 5000000

def checkReferralMin : Check :=
  checkFactor "referral_min_notional_micro" 1000000 1000000000 10 10000000

def checkBonusMint : Check :=
  checkFactor "bonus_mint_daily_cap_micro" 0 10000000000 4 500000000

def checkBonusStructure : Check := fun _ v _ =>
  refuse (v.asStr ≠ some "real_money" ∧ v.asStr ≠ some "sweeps")
    "bonus_structure must be real_money or sweeps"

def checkAmlVelocity : Check := checkOwnFactor 1000000 1000000000000 4 5000000000

def checkStructuringN : Check := checkFactor "aml_structuring_n" 2 100 4 4

def checkStructuringWindow : Check := checkFactor "aml_structuring_window_hours" 1 168 4 24

def checkStructuringThreshold : Check :=
  checkFactor "aml_structuring_threshold_micro" 100000000 10000000000 4 500000000

def checkStructuringFloor : Check :=
  checkFactor "aml_structuring_floor_micro" 10000000 1000000000 4 100000000

def checkShadowCap : Check := checkOwnFactor 0 1000000000 10 25000000

def checkStuckSla : Check := checkOwnFactor 60 86400 4 900

def checkRegionAllowset : Check := fun _ v _ =>
  match v with
  | .arr items => do
    refuse items.isEmpty "region_allowset must be non-empty when present"
    refuse (∃ item ∈ items, item.asStr = none) "region_allowset entries must be strings"
  | _ => .error "expected an array"

def checkRegionVersion : Check := fun _ v snap => do
  let n ← asInteger v
  refuse (n < 1) "region_allowset_version must be >= 1"
  refuse (∃ p ∈ priorI64 snap "region_allowset_version", n ≠ p ∧ n ≠ p + 1)
    "region_allowset_version must increase by 1"

def checkApproveDaily : Check :=
  checkFactor "withdraw_approve_daily_cap_micro" 1000000 10000000000000 4 5000000000

def checkReserveTopup : Check :=
  checkFactor "bonus_reserve_topup_daily_cap_micro" 1000000 1000000000000 4 1000000000

def checkFeeOverride : Check := fun _ v _ =>
  let refused : Except String Unit := .error "fee override must be inherit or override(bps)"
  match v with
  | .str s => if s = "inherit" then .ok () else refused
  | .obj [(field, bps)] =>
    if field = "override" then
      match bps.asI64 with
      | some n => bounded n 10 200
      | none => refused
    else refused
  | _ => refused

def entry (key : String) (write : WriteRule) (applyClass : ApplyClass) (check : Check) :
    CatalogRule :=
  { key := key, pattern := false, write := write, applyClass := applyClass, check := check }

def family (key : String) (write : WriteRule) (applyClass : ApplyClass) (check : Check) :
    CatalogRule :=
  { key := key, pattern := true, write := write, applyClass := applyClass, check := check }

def catalog : List CatalogRule :=
  [entry "trade_fee_bps" (.twoPhase .finance) .newMarketOnly checkTradeFee,
    entry "min_fee_bps" (.twoPhase .finance) .nextTrade checkMinFee,
    entry "discount_flip_window_secs" (.twoPhase .finance) .nextTrade checkFlipWindow,
    entry "fee_discount_bp_by_tier" (.twoPhase .finance) .nextTrade checkDiscounts,
    entry "position_cap_micro_by_tier" (.twoPhase .finance) .nextTrade checkPositionCaps,
    entry "rep_tier_thresholds_micro" (.twoPhase .finance) .nextTrade checkTierThresholds,
    entry "rep_score_min_pot_micro" (.twoPhase .finance) .nextTrade checkMinPot,
    entry "seed_micro_daily" (.twoPhase .finance) .newMarketOnly checkSeed,
    entry "seed_micro_flash" (.twoPhase .finance) .newMarketOnly checkSeed,
    entry "daily_seed_budget_micro" (.twoPhase .finance) .newMarketOnly checkSeedBudget,
    entry "hidden_window_secs" (.twoPhase .finance) .liveImmutable checkHiddenWindow,
    entry "min_votes_to_resolve_floor" (.twoPhase .finance) .liveImmutable checkMinVotesFloor,
    entry "oi_floor_micro" (.twoPhase .finance) .liveImmutable checkOiFloor,
    entry "payout_hold_threshold_micro" (.twoPhase .finance) .liveImmutable checkHoldThreshold,
    entry "sweep_delay_secs" (.direct .ops) .immediateGlobal checkSweepDelay,
    entry "max_votes_per_window" (.twoPhase .ops) .immediateGlobal checkMaxVotes,
    entry "vote_window_secs" (.twoPhase .ops) .immediateGlobal checkVoteWindow,
    entry "integrity_burst_multiplier_ppm" (.twoPhase .superadmin) .immediateGlobal
      checkIntegrityPpm,
    entry "integrity_young_share_max_ppm" (.twoPhase .superadmin) .immediateGlobal
      checkIntegrityPpm,
    entry "integrity_device_share_max_ppm" (.twoPhase .superadmin) .immediateGlobal
      checkIntegrityPpm,
    entry "integrity_subnet_share_max_ppm" (.twoPhase .superadmin) .immediateGlobal
      checkIntegrityPpm,
    entry "integrity_min_metadata_coverage_ppm" (.twoPhase .superadmin) .immediateGlobal
      checkIntegrityPpm,
    entry "flash_cadence_secs" (.direct .curator) .immediateGlobal checkCadence,
    entry "daily_slots" (.direct .curator) .immediateGlobal checkDailySlots,
    entry "feature_flash_markets" (.direct .ops) .immediateGlobal checkBool,
    entry "feature_comments" (.direct .ops) .immediateGlobal checkBool,
    entry "feature_referrals" (.twoPhase .finance) .immediateGlobal checkBool,
    entry "trading_paused" (.direct .ops) .immediateGlobal checkBool,
    family "market_paused:" (.direct .ops) .immediateGlobal checkBool,
    family "voting_paused:" (.twoPhase .superadmin) .immediateGlobal checkBool,
    entry "faucet_per_call_cap_micro" (.direct .finance) .immediateGlobal checkFaucetCap,
    entry "remedial_credit_market_cap_micro" (.twoPhase .finance) .immediateGlobal
      checkRemedialMarketCap,
    entry "remedial_credit_daily_cap_micro" (.twoPhase .finance) .immediateGlobal
      checkRemedialDailyCap,
    entry "receivable_outstanding_cap_micro" (.twoPhase .finance) .immediateGlobal
      checkReceivableCap,
    entry "writeoff_per_item_cap_micro" (.twoPhase .finance) .immediateGlobal checkWriteoffItemCap,
    entry "writeoff_daily_cap_micro" (.twoPhase .finance) .immediateGlobal checkWriteoffDailyCap,
    entry "proposal_ttl_secs" (.twoPhase .superadmin) .immediateGlobal checkProposalTtl,
    entry "dual_control_delay_secs" (.twoPhase .superadmin) .immediateGlobal checkDualDelay,
    entry "deposit_kyc_tier" (.twoPhase .finance) .nextTrade checkKycTier,
    entry "withdraw_kyc_tier" (.twoPhase .finance) .nextTrade checkKycTier,
    entry "withdraw_min_micro" (.twoPhase .finance) .nextTrade checkWithdrawMin,
    entry "withdraw_max_micro" (.twoPhase .finance) .nextTrade checkWithdrawMax,
    entry "withdraw_daily_limit_micro" (.twoPhase .finance) .nextTrade checkWithdrawDaily,
    entry "withdraw_auto_approve_micro" (.twoPhase .finance) .nextTrade checkAutoApprove,
    entry "withdraw_dual_control_micro" (.twoPhase .superadmin) .nextTrade checkDualControl,
    entry "dest_warm_floor_micro" (.twoPhase .finance) .nextTrade checkWarmFloor,
    entry "dest_warm_age_hours" (.twoPhase .finance) .nextTrade checkWarmAge,
    entry "dest_daily_limit_micro" (.twoPhase .finance) .nextTrade checkDestDaily,
    entry "hot_wallet_daily_limit_micro" (.twoPhase .superadmin) .nextTrade checkHotWallet,
    entry "deposit_confirmations" (.twoPhase .ops) .immediateGlobal checkConfirmations,
    entry "pause_deposits" (.direct .ops) .immediateGlobal checkBool,
    entry "pause_withdrawals" (.direct .ops) .immediateGlobal checkBool,
    entry "credit_signup_micro" (.twoPhase .finance) .nextTrade checkCreditGrant,
    entry "credit_referral_referrer_micro" (.twoPhase .finance) .nextTrade checkCreditGrant,
    entry "credit_referral_referee_micro" (.twoPhase .finance) .nextTrade checkCreditGrant,
    entry "referral_min_notional_micro" (.twoPhase .finance) .nextTrade checkReferralMin,
    entry "bonus_mint_daily_cap_micro" (.twoPhase .finance) .nextTrade checkBonusMint,
    entry "bonus_structure" (.twoPhase .superadmin) .nextTrade checkBonusStructure,
    entry "aml_deposit_velocity_micro_24h" (.twoPhase .finance) .immediateGlobal checkAmlVelocity,
    entry "aml_withdraw_velocity_micro_24h" (.twoPhase .finance) .immediateGlobal checkAmlVelocity,
    entry "aml_structuring_n" (.twoPhase .finance) .immediateGlobal checkStructuringN,
    entry "aml_structuring_window_hours" (.twoPhase .finance) .immediateGlobal
      checkStructuringWindow,
    entry "aml_structuring_threshold_micro" (.twoPhase .finance) .immediateGlobal
      checkStructuringThreshold,
    entry "aml_structuring_floor_micro" (.twoPhase .finance) .immediateGlobal checkStructuringFloor,
    entry "shadow_trade_cap_micro" (.direct .ops) .nextTrade checkShadowCap,
    entry "shadow_deposit_cap_micro" (.direct .ops) .nextTrade checkShadowCap,
    entry "stuck_send_sla_secs" (.twoPhase .ops) .immediateGlobal checkStuckSla,
    entry "stuck_screening_sla_secs" (.twoPhase .ops) .immediateGlobal checkStuckSla,
    entry "region_allowset" (.twoPhase .superadmin) .nextTrade checkRegionAllowset,
    entry "region_allowset_version" (.twoPhase .superadmin) .nextTrade checkRegionVersion,
    entry "withdraw_approve_daily_cap_micro" (.twoPhase .superadmin) .nextTrade checkApproveDaily,
    entry "bonus_reserve_topup_daily_cap_micro" (.twoPhase .superadmin) .nextTrade
      checkReserveTopup,
    family "fee_bps_override:" (.twoPhase .finance) .nextTrade checkFeeOverride]

def stripFamily (family key : String) : Option (List Char) :=
  if family.toList <+: key.toList then some (key.toList.drop family.toList.length) else none

@[simp] theorem stripFamily_scopedKey (family : String) (suffix : List Char) :
    stripFamily family (scopedKey family suffix) = some suffix := by
  simp [stripFamily, scopedKey, String.toList_append, String.toList_ofList]

/-- A family's rule covers the keys whose suffix the UUID parser takes. -/
def CatalogRule.covers (rule : CatalogRule) (key : String) : Bool :=
  if rule.pattern then (stripFamily rule.key key).any fun suffix => (Uuid.parseStr suffix).isSome
  else rule.key = key

def ruleFor (key : String) : Option CatalogRule := catalog.find? fun rule => rule.covers key

def isSensitive (key : String) : Bool :=
  match (ruleFor key).map CatalogRule.write with
  | some (.twoPhase _) => true
  | _ => false

/-- A direct key is written by its listed role alone. -/
def roleMayWrite (role : AdminRole) (key : String) : Bool :=
  match (ruleFor key).map CatalogRule.write with
  | some (.direct listed) => role = listed
  | some (.twoPhase listed) => role = listed ∨ role = .superadmin
  | none => false

/-- The listed role or a superadmin, for keys of either flow. -/
def roleMayPropose (role : AdminRole) (key : String) : Bool :=
  match (ruleFor key).map CatalogRule.write with
  | some (.direct listed) | some (.twoPhase listed) => role = listed ∨ role = .superadmin
  | none => false

end Opinions.Config
