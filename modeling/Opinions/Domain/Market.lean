import Mathlib

/-! The market lifecycle (`domain/src/market.rs`). -/

namespace Opinions.Domain.Market

inductive MarketState
  | draft
  | scheduled
  | live
  | closing
  | closed
  | resolving
  | resolved
  | paid
  | voided
  deriving DecidableEq

inductive MarketEvent
  | approve
  | goLive
  | enterCloseWindow
  | close
  | startIntegritySweep
  | resolve
  | pay
  | voidLowParticipation
  | voidByAdmin
  deriving DecidableEq

inductive TransitionError
  | illegal (start : MarketState) (event : MarketEvent)

/-- Every edge that is not listed is illegal. -/
def transition : MarketState → MarketEvent → Except TransitionError MarketState
  | .draft, .approve => .ok .scheduled
  | .scheduled, .goLive => .ok .live
  | .live, .enterCloseWindow => .ok .closing
  | .closing, .close => .ok .closed
  | .closed, .startIntegritySweep => .ok .resolving
  | .closed, .resolve | .resolving, .resolve => .ok .resolved
  | .resolved, .pay => .ok .paid
  | .closed, .voidLowParticipation | .resolving, .voidLowParticipation => .ok .voided
  | .paid, .voidByAdmin => .error (.illegal .paid .voidByAdmin)
  | .voided, .voidByAdmin => .error (.illegal .voided .voidByAdmin)
  | _, .voidByAdmin => .ok .voided
  | start, event => .error (.illegal start event)

end Opinions.Domain.Market
