import Opinions.Config.Value
import Opinions.Domain.FeePolicy
import Opinions.Model.Uuid

/-! The config values a trade is priced and gated by: the process's economy
policy, the typed fee override of a market, the pause flags, and the staleness
test that compares a preview with the changes made since
(`application/src/ops/config.rs`, `application/src/money/mod.rs`). -/

namespace Opinions.Config

open Domain.FeePolicy Model

inductive TradeAction
  | buy
  | sell
  deriving DecidableEq

/-- The economy policy the process runs with, as far as trades read it. -/
structure RepConfig where
  positionCapMicroByTier : Vector Int 5
  feeDiscountBpByTier : Vector Nat 5
  minFeeBps : Nat
  discountFlipWindowSecs : Nat
  deriving DecidableEq

/-- One change row: the value before, absent for a new key, and after. -/
structure ConfigChange where
  key : String
  old : Option Value
  new : Value
  deriving DecidableEq

inductive FeeBpsOverride
  | inherit
  | override (bps : Nat)

/-- The closed form `"inherit" | {"override": 10..=200}`; anything else that is
present is malformed. -/
def FeeBpsOverride.parse : Option Value → Option FeeBpsOverride
  | none => some .inherit
  | some (.str s) => if s = "inherit" then some .inherit else none
  | some (.obj [(field, v)]) =>
    if field = "override" then
      match v.asU64 with
      | some bps => if 10 ≤ bps ∧ bps ≤ 200 then some (.override bps) else none
      | none => none
    else none
  | some _ => none

/-- An override replaces the pool's stamped fee. -/
def FeeBpsOverride.baseBps (o : FeeBpsOverride) (poolFeeBps : Nat) : Nat :=
  match o with
  | .inherit => poolFeeBps
  | .override bps => bps

/-- Absent or not `true` is unpaused. -/
def pauseInForce (value : Option Value) : Bool := (value.bind Value.asBool).getD false

/-- A key of a market-scoped family, from the text after the colon. -/
def scopedKey (family : String) (suffix : List Char) : String := family ++ String.ofList suffix

def feeOverrideKey (m : MarketId) : String := scopedKey "fee_bps_override:" m.uuid.text

def marketPausedKey (m : MarketId) : String := scopedKey "market_paused:" m.uuid.text

def votingPausedKey (m : MarketId) : String := scopedKey "voting_paused:" m.uuid.text

def tradingGlobalFence : String := "trading-global"

def tradingMarketFence (m : MarketId) : String := scopedKey "trading-market:" m.uuid.text

def votingMarketFence (m : MarketId) : String := scopedKey "voting-market:" m.uuid.text

structure StalenessContext where
  userTier : Nat
  poolFeeBps : Nat
  activeFeeOverride : FeeBpsOverride
  rep : RepConfig
  action : TradeAction
  secsSinceLastBuy : Option Int
  market : Option MarketId

def valueAtPreview (changes : List ConfigChange) (key : String) : Option Value :=
  (changes.find? (·.key = key)).map fun c => c.old.getD .null

def valueNow (changes : List ConfigChange) (key : String) : Option Value :=
  (changes.reverse.find? (·.key = key)).map ConfigChange.new

def tierEntry (tier : Fin 5) (v : Option Value) (fallback : Int) : Int :=
  match v.bind Value.asI64Array5 with
  | some arr => arr.get tier
  | none => fallback

def scalar (v : Option Value) (fallback : Int) : Int := (v.bind Value.asI64).getD fallback

def flips (ctx : StalenessContext) (window : Int) : Bool :=
  ctx.action = .sell ∧ window ≠ 0 ∧ ∃ secs ∈ ctx.secsSinceLastBuy, secs < window

def driftFee (base minFee discount : Int) (flip : Bool) : Int :=
  if flip then base else max (base - discount) minFee

def overrideBeforeAfter (changes : List ConfigChange) (ctx : StalenessContext) :
    Option (FeeBpsOverride × FeeBpsOverride) :=
  match ctx.market with
  | none => some (ctx.activeFeeOverride, ctx.activeFeeOverride)
  | some m =>
    if changes.any (·.key = feeOverrideKey m) then do
      let before ← FeeBpsOverride.parse (valueAtPreview changes (feeOverrideKey m))
      let after ← FeeBpsOverride.parse (valueNow changes (feeOverrideKey m))
      pure (before, after)
    else some (ctx.activeFeeOverride, ctx.activeFeeOverride)

/-- A preview-relevant value of this market and user changed: the tier's position
cap, or the effective fee computed before and after. -/
def previewRelevantDrift (changes : List ConfigChange) (ctx : StalenessContext) : Bool :=
  if changes.isEmpty then false
  else
    let tier := tierIndex ctx.userTier
    let capBefore := tierEntry tier (valueAtPreview changes "position_cap_micro_by_tier")
      (ctx.rep.positionCapMicroByTier.get tier)
    let capAfter := tierEntry tier (valueNow changes "position_cap_micro_by_tier") capBefore
    if changes.any (·.key = "position_cap_micro_by_tier") ∧ capBefore ≠ capAfter then true
    else
      let minFeeBefore := scalar (valueAtPreview changes "min_fee_bps") ctx.rep.minFeeBps
      let minFeeAfter := scalar (valueNow changes "min_fee_bps") minFeeBefore
      let discountBefore := tierEntry tier (valueAtPreview changes "fee_discount_bp_by_tier")
        (ctx.rep.feeDiscountBpByTier.get tier)
      let discountAfter := tierEntry tier (valueNow changes "fee_discount_bp_by_tier")
        discountBefore
      let windowBefore := scalar (valueAtPreview changes "discount_flip_window_secs")
        (min ctx.rep.discountFlipWindowSecs 9223372036854775807 : Nat)
      let windowAfter := scalar (valueNow changes "discount_flip_window_secs") windowBefore
      match overrideBeforeAfter changes ctx with
      | none => true
      | some (before, after) =>
        driftFee (before.baseBps ctx.poolFeeBps) minFeeBefore discountBefore
            (flips ctx windowBefore) ≠
          driftFee (after.baseBps ctx.poolFeeBps) minFeeAfter discountAfter
            (flips ctx windowAfter)

end Opinions.Config
