import Mathlib

/-! Tiered trade fees (`domain/src/fee_policy.rs`): a sell soon after a buy pays
the base rate, every other trade the base less its tier's discount, down to the
floor. -/

namespace Opinions.Domain.FeePolicy

/-- The slot of a five-tier table that serves `tier`. -/
def tierIndex (tier : Nat) : Fin 5 := ⟨min tier 4, by omega⟩

structure FeeContext where
  baseBps : Nat
  tier : Nat
  discountBpByTier : Vector Nat 5
  minFeeBps : Nat
  isFlipWithinWindow : Bool

/-- Subtraction saturates at zero, as `saturating_sub` does. -/
def effectiveFee (ctx : FeeContext) : Nat :=
  if ctx.isFlipWithinWindow then ctx.baseBps
  else max (ctx.baseBps - ctx.discountBpByTier.get (tierIndex ctx.tier)) ctx.minFeeBps

end Opinions.Domain.FeePolicy
