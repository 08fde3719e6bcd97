import Opinions.Resolve.Market

/-! The clock-driven sweep (`application/src/advance_due.rs`). Each due market cascades
across all its passed boundaries, every step a transaction of its own. The cascade's loop
has no bound in the source: a scheduler key that is already taken replays without moving
the market. Here it has fuel, and runs dry exactly where the loop would not end. -/

namespace Opinions.Resolve

open Lib.Result Domain.Integrity Domain.Market Model Store Trade

/-- When an unfinished market is next due, if it is by now. -/
def dueAt (now : Instant) (r : LifecycleRow) : Option Instant :=
  match r.state with
  | .scheduled => if r.opensAt ≤ now then some r.opensAt else none
  | .live => if r.tallyHiddenAt ≤ now then some r.tallyHiddenAt else none
  | .closing => if r.closesAt ≤ now then some r.closesAt else none
  | .closed => if r.curatorFlaggedAt = none then some r.closesAt else none
  | .resolving =>
    if r.curatorFlaggedAt = none then r.integrityDueAt.filter fun due => due ≤ now else none
  | _ => none

/-- Rows by due time, then by identifier. -/
def dueBefore (a b : Instant × MarketId) : Bool :=
  a.1 < b.1 ∨ a.1 = b.1 ∧ a.2.uuid.toNat ≤ b.2.uuid.toNat

def dueList (now : Instant) (db : LifecycleDb) : List (Instant × MarketId) :=
  db.markets.filterMap fun r => (dueAt now r).map fun due => (due, r.id)

def dueMarkets (now : Instant) (limit : Nat) (db : LifecycleDb) : List MarketId :=
  (((dueList now db).insertionSort fun a b => dueBefore a b).take limit).map Prod.snd

structure CascadeResult where
  advanced : Nat
  resolved : Nat
  curatorNeeded : Nat
  held : Nat
  sweptPass : Nat
  sweptFlag : Nat

def CascadeResult.progress (r : CascadeResult) : Nat :=
  r.advanced + r.resolved + r.curatorNeeded + r.held + r.sweptPass + r.sweptFlag

def idle (advanced : Nat) : CascadeResult := ⟨advanced, 0, 0, 0, 0, 0⟩

def classifyOutcome (outcome : ResolveOutcome) (advanced : Nat) : CascadeResult :=
  match outcome with
  | .settled | .voided => { idle advanced with resolved := 1 }
  | .heldForReview _ => { idle advanced with held := 1 }
  | .curatorRequired => { idle advanced with curatorNeeded := 1 }

/-- The boundary a scheduled, live or closing market may have passed. -/
inductive Boundary
  | opening
  | freezing
  | closing

namespace Boundary

def event : Boundary → MarketEvent
  | opening => .goLive
  | freezing => .enterCloseWindow
  | closing => .close

def name : Boundary → String
  | opening => "open"
  | freezing => "freeze"
  | closing => "close"

def start : Boundary → MarketState
  | opening => .scheduled
  | freezing => .live
  | closing => .closing

end Boundary

def schedKey (m : MarketId) (name : String) : String :=
  "sched:" ++ String.ofList m.uuid.text ++ ":" ++ name

def boundary (now : Instant) (r : LifecycleRow) : Option Boundary :=
  match r.state with
  | .scheduled => if r.opensAt ≤ now then some .opening else none
  | .live => if r.tallyHiddenAt ≤ now then some .freezing else none
  | .closing => if r.closesAt ≤ now then some .closing else none
  | _ => none

/-- Store the sweep's report unless there is one, and answer with the stored verdict. -/
def writeIntegrityReport (cfg : ResolveConfig) (facts : MarketFacts) (m : MarketId)
    (db : LifecycleDb) : Except AppError (Verdict × LifecycleDb) := do
  let row ← db.market m
  refuse (row.state ≠ .resolving)
    (.store (.invariant "integrity report requires resolving market"))
  match db.report m with
  | some stored => pure (stored, db)
  | none =>
    let fresh := verdict (sweepChecks facts.stats cfg.thresholds)
    pure (fresh, { db with reports := db.reports ++ [(m, fresh)] })

/-- The row with a flag; a flag that is set already stays. -/
def flagged (facts : MarketFacts) (state : MarketState) (row : LifecycleRow) : LifecycleRow :=
  { row with state := state, curatorFlaggedAt := some (row.curatorFlaggedAt.getD facts.now) }

/-- Ask for a curator; a closed market walks into resolving first. -/
def flagCurator (facts : MarketFacts) (m : MarketId) (db : LifecycleDb) :
    Except AppError (Bool × LifecycleDb) := do
  let row ← db.market m
  if row.state = .closed then do
    let stop ← (transition .closed .startIntegritySweep).mapError fun _ => AppError.illegalTransition
    let recorded ← (db.writeRow (flagged facts stop row)).recordCommand (schedKey m "curator")
      ⟨m, .startIntegritySweep, stop⟩
    pure (row.curatorFlaggedAt.isNone, recorded)
  else if row.state ≠ .resolving then pure (false, db)
  else pure (row.curatorFlaggedAt.isNone, db.writeRow (flagged facts row.state row))

/-- Resolve a closed market; too few votes on a large one ask for a curator. -/
def resolveClosed (cfg : ResolveConfig) (facts : MarketFacts) (m : MarketId) (advanced : Nat)
    (db : LifecycleDb) : Except AppError CascadeResult × LifecycleDb :=
  match resolveMarket cfg facts m none db with
  | .ok (receipt, resolved) => (.ok (classifyOutcome receipt.outcome advanced), resolved)
  | .error .needsCuratorDecision =>
    match flagCurator facts m db with
    | .ok (won, marked) => (.ok { idle advanced with curatorNeeded := won.toNat }, marked)
    | .error e => (.error e, db)
  | .error e => (.error e, db)

/-- Report on a held market and resolve it if the report passes. Unlike
`resolveClosed`, a decision that needs a curator is an error here. -/
def sweepResolving (cfg : ResolveConfig) (facts : MarketFacts) (m : MarketId) (advanced : Nat)
    (db : LifecycleDb) : Except AppError CascadeResult × LifecycleDb :=
  match writeIntegrityReport cfg facts m db with
  | .error e => (.error e, db)
  | .ok (.flag, reported) =>
    match flagCurator facts m reported with
    | .ok (won, marked) =>
      (.ok { idle advanced with curatorNeeded := won.toNat, sweptFlag := won.toNat }, marked)
    | .error e => (.error e, reported)
  | .ok (.pass, reported) =>
    match resolveMarket cfg facts m none reported with
    | .ok (receipt, resolved) =>
      let result := classifyOutcome receipt.outcome advanced
      (.ok { result with sweptPass := if result.resolved ≠ 0 then 1 else 0 }, resolved)
    | .error e => (.error e, reported)

/-- A held market whose sweep is due and that nobody has flagged. -/
def reviewDue (now : Instant) (row : LifecycleRow) : Bool :=
  row.state = .resolving ∧ (∃ due ∈ row.integrityDueAt, due ≤ now) ∧ row.curatorFlaggedAt = none

def cascade (cfg : ResolveConfig) (facts : MarketFacts) (m : MarketId) :
    Nat → Nat → LifecycleDb → Option (Except AppError CascadeResult × LifecycleDb)
  | 0, _, _ => none
  | fuel + 1, advanced, db =>
    match db.market m with
    | .error e => some (.error e, db)
    | .ok row =>
      match boundary facts.now row with
      | some b =>
        match advanceMarket ⟨m, b.event, schedKey m b.name⟩ db with
        | .error e => some (.error e, db)
        | .ok (_, moved) => cascade cfg facts m fuel (advanced + 1) moved
      | none =>
        if row.state = .closed then some (resolveClosed cfg facts m advanced db)
        else if reviewDue facts.now row then some (sweepResolving cfg facts m advanced db)
        else some (.ok (idle advanced), db)

structure SweepReport where
  totals : CascadeResult
  errors : List (MarketId × AppError)

def SweepReport.add (report : SweepReport) (r : CascadeResult) : SweepReport :=
  { report with totals :=
      ⟨report.totals.advanced + r.advanced, report.totals.resolved + r.resolved,
        report.totals.curatorNeeded + r.curatorNeeded, report.totals.held + r.held,
        report.totals.sweptPass + r.sweptPass, report.totals.sweptFlag + r.sweptFlag⟩ }

/-- What one round reads: the clock of its query, and each market's facts in turn. -/
structure RoundFacts where
  now : Instant
  market : MarketId → MarketFacts

/-- One batch; a market that fails is reported and the others go on. -/
def sweepBatch (cfg : ResolveConfig) (fuel : Nat) (facts : MarketId → MarketFacts) :
    List MarketId → Nat → SweepReport → LifecycleDb → Option (Nat × SweepReport × LifecycleDb)
  | [], progress, report, db => some (progress, report, db)
  | m :: rest, progress, report, db =>
    match cascade cfg (facts m) m fuel 0 db with
    | none => none
    | some (.ok r, moved) =>
      sweepBatch cfg fuel facts rest (progress + r.progress) (report.add r) moved
    | some (.error e, moved) =>
      sweepBatch cfg fuel facts rest progress
        { report with errors := report.errors ++ [(m, e)] } moved

def sweepRounds (cfg : ResolveConfig) (fuel : Nat) (facts : Nat → RoundFacts) :
    Nat → Nat → SweepReport → LifecycleDb → Option (SweepReport × LifecycleDb)
  | 0, _, report, db => some (report, db)
  | rounds + 1, i, report, db =>
    if dueMarkets (facts i).now 256 db = [] then some (report, db)
    else
      match sweepBatch cfg fuel (facts i).market (dueMarkets (facts i).now 256 db) 0 report db with
      | none => none
      | some (progress, report, moved) =>
        if progress = 0 then some (report, moved)
        else sweepRounds cfg fuel facts rounds (i + 1) report moved

def sweep (cfg : ResolveConfig) (fuel : Nat) (facts : Nat → RoundFacts) (db : LifecycleDb) :
    Option (SweepReport × LifecycleDb) :=
  sweepRounds cfg fuel facts 8 0 ⟨idle 0, []⟩ db

/-- The transactions of the lifecycle: seeding, an administrator's advance, and those a
sweep is made of. -/
inductive Command
  | seed (seed : SeedRow)
  | advance (cmd : AdvanceMarketCmd)
  | pass (m : MarketId) (b : Boundary)
  | resolve (facts : MarketFacts) (m : MarketId) (curatorOverride : Option CuratorDecision)
  | report (facts : MarketFacts) (m : MarketId)
  | flag (facts : MarketFacts) (m : MarketId)

def LifecycleDb.step (cfg : ResolveConfig) (db : LifecycleDb) :
    Command → Except AppError LifecycleDb
  | .seed seed => seedMarket seed db
  | .advance cmd => (advanceMarket cmd db).map Prod.snd
  | .pass m b => (advanceMarket ⟨m, b.event, schedKey m b.name⟩ db).map Prod.snd
  | .resolve facts m curatorOverride =>
    (resolveMarket cfg facts m curatorOverride db).map Prod.snd
  | .report facts m => (writeIntegrityReport cfg facts m db).map Prod.snd
  | .flag facts m => (flagCurator facts m db).map Prod.snd

end Opinions.Resolve
