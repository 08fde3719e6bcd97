import Opinions.Resolve.Lifecycle

/-! `ResolveMarket` (`application/src/resolve_market.rs`): the gates before a payout,
the hold of a large escrow, the decision, and the state the market ends in. What the
settlement transaction itself answers at a result (holdings, payout entries, positions,
scores, referrals) is an input, as are the figures it reads under the market's lock. -/

namespace Opinions.Resolve

open Lib.Checked Lib.Result Domain.Integrity Domain.Market Model Store Trade

structure Tally where
  yesVotes : Int
  noVotes : Int

namespace Tally

def total (t : Tally) : Int := t.yesVotes + t.noVotes

/-- Basis points of yes among the votes, absent without votes. -/
def actualYesBps (t : Tally) : Option Nat :=
  if t.total = 0 then none
  else
    let bps := (t.yesVotes * 10000).tdiv t.total
    if 0 ≤ bps ∧ bps ≤ 65535 then some bps.toNat else none

end Tally

inductive CuratorDecision
  | resolveAtTally
  | void

inductive ResolveOutcome
  | settled
  | voided
  | curatorRequired
  | heldForReview (dueAt : Instant)
  deriving DecidableEq

structure ResolveReceipt where
  market : MarketId
  outcome : ResolveOutcome
  finalYesBps : Option Nat
  replayed : Bool
  deriving DecidableEq

/-- The process's `ResolveConfig` and the part of its `IntegritySweepConfig` used here. -/
structure ResolveConfig where
  oiFloor : Int
  payoutHoldThresholdMicro : Int
  sweepDelaySecs : Nat
  thresholds : SweepThresholds

/-- What a lifecycle transaction of one market reads, and what settling it answers. -/
structure MarketFacts where
  now : Instant
  /-- The participants locked before the market cover those found after it. -/
  stable : Bool
  escrowBalance : Except StoreError Int
  tally : Tally
  openInterest : Int
  stats : VoteStats
  settlement : (voided : Bool) → (finalBps : Nat) → Except AppError Unit

def seconds (n : Int) : Int := n * 1000000000

/-- Enough votes resolve at the tally; too few void a small market, or need a curator. -/
def decide (tally : Tally) (minVotes openInterest oiFloor : Int) : Except AppError (Bool × Nat) :=
  match tally.actualYesBps with
  | some bps =>
    if minVotes ≤ tally.total then .ok (false, bps)
    else if openInterest < oiFloor then .ok (true, 5000)
    else .error .needsCuratorDecision
  | none => if openInterest < oiFloor then .ok (true, 5000) else .error .needsCuratorDecision

/-- A flagged market needs an override, any other refuses one; an unflagged one under
review needs a report that passed. -/
def gate (row : LifecycleRow) (curatorOverride : Option CuratorDecision) (db : LifecycleDb) :
    Except AppError Unit :=
  if row.state = .resolving then
    if row.curatorFlaggedAt.isSome then refuse (curatorOverride = none) .curatorRequired
    else do
      refuse (curatorOverride ≠ none) .curatorOverrideNotAllowed
      refuse (db.report row.id ≠ some .pass) .underReview
  else refuse (curatorOverride ≠ none) .curatorOverrideNotAllowed

/-- Resolving already, or walking into it. -/
def enterResolving : MarketState → Except AppError MarketState
  | .resolving => .ok .resolving
  | other => (transition other .startIntegritySweep).mapError fun _ => AppError.illegalTransition

def finalDecision (cfg : ResolveConfig) (facts : MarketFacts) (row : LifecycleRow) :
    Option CuratorDecision → Except AppError (Bool × Nat)
  | some .resolveAtTally => do
    let bps ← okOr facts.tally.actualYesBps .needsCuratorDecision
    pure (false, bps)
  | some .void => .ok (true, 5000)
  | none => decide facts.tally row.minVotesToResolve facts.openInterest cfg.oiFloor

def voidEvent : Option CuratorDecision → MarketEvent
  | some .void => .voidByAdmin
  | _ => .voidLowParticipation

def finalState (entered : MarketState) (curatorOverride : Option CuratorDecision)
    (voided : Bool) : Except AppError MarketState :=
  if voided then
    (transition entered (voidEvent curatorOverride)).mapError fun _ => AppError.illegalTransition
  else do
    let tallied ← (transition entered .resolve).mapError fun _ => AppError.illegalTransition
    (transition tallied .pay).mapError fun _ => AppError.illegalTransition

def sweepKey (m : MarketId) : String := "sweep:" ++ String.ofList m.uuid.text

/-- A large escrow is held for a sweep after a delay. -/
def holdForReview (cfg : ResolveConfig) (facts : MarketFacts) (row : LifecycleRow)
    (entered : MarketState) (db : LifecycleDb) :
    Except AppError (ResolveReceipt × LifecycleDb) := do
  let delay ← okOr (tryI64 cfg.sweepDelaySecs) .overflow
  let dueAt := facts.now + seconds delay
  let next := { row with state := entered, integrityDueAt := some dueAt }
  let held ← (db.writeRow next).recordCommand (sweepKey row.id)
    ⟨row.id, .startIntegritySweep, entered⟩
  pure (⟨row.id, .heldForReview dueAt, none, false⟩, held)

def payOut (cfg : ResolveConfig) (facts : MarketFacts) (row : LifecycleRow)
    (entered : MarketState) (curatorOverride : Option CuratorDecision) (db : LifecycleDb) :
    Except AppError (ResolveReceipt × LifecycleDb) := do
  let (voided, finalBps) ← finalDecision cfg facts row curatorOverride
  facts.settlement voided finalBps
  let state ← finalState entered curatorOverride voided
  let flag := if curatorOverride.isSome then none else row.curatorFlaggedAt
  let paid := db.writeRow { row with state := state, curatorFlaggedAt := flag }
  pure (⟨row.id, if voided then .voided else .settled, some finalBps, false⟩,
    { paid with payouts := paid.payouts ++ [row.id] })

/-- The receipt of a market that was paid out before. -/
def replayReceipt (facts : MarketFacts) (m : MarketId) (db : LifecycleDb) :
    Except AppError ResolveReceipt := do
  let row ← db.market m
  match row.state with
  | .voided => pure ⟨m, .voided, some 5000, true⟩
  | .paid => do
    let bps ← okOr facts.tally.actualYesBps (.store (.invariant "paid market without a tally"))
    pure ⟨m, .settled, some bps, true⟩
  | _ => .error (.store (.invariant "resolve key exists but market is not settled"))

def resolveMarket (cfg : ResolveConfig) (facts : MarketFacts) (m : MarketId)
    (curatorOverride : Option CuratorDecision) (db : LifecycleDb) :
    Except AppError (ResolveReceipt × LifecycleDb) :=
  if m ∈ db.payouts then do
    let receipt ← replayReceipt facts m db
    pure (receipt, db)
  else do
    let row ← db.market m
    refuse (facts.stable = false)
      (.store (.invariant "resolution participant set did not stabilize"))
    gate row curatorOverride db
    let entered ← enterResolving row.state
    let escrow ← facts.escrowBalance.mapError .store
    if row.state = .closed ∧ cfg.payoutHoldThresholdMicro ≤ escrow then
      holdForReview cfg facts row entered db
    else payOut cfg facts row entered curatorOverride db

end Opinions.Resolve
