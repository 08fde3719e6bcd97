import Opinions.Domain.Integrity
import Opinions.Trade.Place

/-! The lifecycle of markets after they are seeded: the rows the scheduler works on,
and `AdvanceMarket` (`application/src/advance_market.rs`), which moves a market along
one edge that has no money in it. An admin actor only adds an audit row, so the actor
is left out. -/

namespace Opinions.Resolve

open Lib.Result Lib.Rows Domain.Integrity Domain.Market Model Store Trade

structure LifecycleRow where
  id : MarketId
  state : MarketState
  opensAt : Instant
  tallyHiddenAt : Instant
  closesAt : Instant
  minVotesToResolve : Int
  integrityDueAt : Option Instant
  curatorFlaggedAt : Option Instant
  deriving DecidableEq

structure LifecycleCommand where
  market : MarketId
  event : MarketEvent
  resultingState : MarketState
  deriving DecidableEq

/-- The tables of the lifecycle; a payout is named by its market, whose key it has. -/
structure LifecycleDb where
  markets : List LifecycleRow
  commands : List (String × LifecycleCommand)
  reports : List (MarketId × Verdict)
  payouts : List MarketId
  deriving DecidableEq

namespace LifecycleDb

def empty : LifecycleDb := ⟨[], [], [], []⟩

def find? (db : LifecycleDb) (m : MarketId) : Option LifecycleRow :=
  find LifecycleRow.id m db.markets

def market (db : LifecycleDb) (m : MarketId) : Except AppError LifecycleRow :=
  okOr (db.find? m) (.store (.notFound "market"))

def report (db : LifecycleDb) (m : MarketId) : Option Verdict :=
  (find Prod.fst m db.reports).map Prod.snd

/-- The row with the columns the lifecycle writes. -/
def written (next row : LifecycleRow) : LifecycleRow :=
  { row with state := next.state, integrityDueAt := next.integrityDueAt
             curatorFlaggedAt := next.curatorFlaggedAt }

def writeRow (db : LifecycleDb) (row : LifecycleRow) : LifecycleDb :=
  { db with markets := update LifecycleRow.id row.id (written row) db.markets }

def recordCommand (db : LifecycleDb) (key : String) (command : LifecycleCommand) :
    Except AppError LifecycleDb := do
  refuse (key ∈ db.commands.map Prod.fst) (.store (.integrity "lifecycle_commands_pkey"))
  pure { db with commands := db.commands ++ [(key, command)] }

end LifecycleDb

/-- A seeded market is a draft or, if it was approved at once, scheduled. -/
structure SeedRow where
  id : MarketId
  approved : Bool
  opensAt : Instant
  tallyHiddenAt : Instant
  closesAt : Instant
  minVotesToResolve : Int

def seedMarket (seed : SeedRow) (db : LifecycleDb) : Except AppError LifecycleDb := do
  refuse (seed.id ∈ db.markets.map LifecycleRow.id) (.store (.integrity "markets_pkey"))
  pure { db with markets := db.markets ++
    [{ id := seed.id, state := if seed.approved then .scheduled else .draft
       opensAt := seed.opensAt, tallyHiddenAt := seed.tallyHiddenAt, closesAt := seed.closesAt
       minVotesToResolve := seed.minVotesToResolve, integrityDueAt := none
       curatorFlaggedAt := none }] }

structure AdvanceMarketCmd where
  market : MarketId
  event : MarketEvent
  idempotencyKey : String

structure AdvanceReceipt where
  market : MarketId
  start : MarketState
  stop : MarketState
  replayed : Bool

def nonFinancial : MarketEvent → Bool
  | .approve | .goLive | .enterCloseWindow | .close | .startIntegritySweep => true
  | _ => false

def sourceState : MarketEvent → MarketState
  | .approve => .draft
  | .goLive => .scheduled
  | .enterCloseWindow => .live
  | .close => .closing
  | .startIntegritySweep => .closed
  | .resolve | .pay | .voidLowParticipation | .voidByAdmin => .resolving

def advanceMarket (cmd : AdvanceMarketCmd) (db : LifecycleDb) :
    Except AppError (AdvanceReceipt × LifecycleDb) := do
  refuse (nonFinancial cmd.event = false) .useResolveMarket
  match find Prod.fst cmd.idempotencyKey db.commands with
  | some recorded =>
    pure (⟨recorded.2.market, sourceState recorded.2.event, recorded.2.resultingState, true⟩, db)
  | none => do
    let row ← db.market cmd.market
    let stop ← (transition row.state cmd.event).mapError fun _ => AppError.illegalTransition
    let recorded ← (db.writeRow { row with state := stop }).recordCommand cmd.idempotencyKey
      ⟨cmd.market, cmd.event, stop⟩
    pure (⟨cmd.market, row.state, stop, false⟩, recorded)

/-- How far a market is; every transition goes forward. -/
def rank : MarketState → Nat
  | .draft => 0
  | .scheduled => 1
  | .live => 2
  | .closing => 3
  | .closed => 4
  | .resolving => 5
  | .resolved => 6
  | .paid | .voided => 7

theorem rank_lt_of_transition {s s' : MarketState} {e : MarketEvent}
    (h : transition s e = .ok s') : rank s < rank s' := by
  cases s <;> cases e <;> cases h <;> decide

namespace LifecycleDb

variable {db db' : LifecycleDb} {m : MarketId} {row : LifecycleRow}

theorem market_eq_ok : db.market m = .ok row ↔ db.find? m = some row := by
  rw [market, okOr_eq_ok]

theorem id_of_find (h : db.find? m = some row) : row.id = m := key_of_find h

theorem written_id (next row : LifecycleRow) : (written next row).id = row.id := rfl

theorem find_writeRow_self (db : LifecycleDb) (row : LifecycleRow) :
    (db.writeRow row).find? row.id = (db.find? row.id).map (written row) :=
  find_update_self (written_id row)

theorem find_writeRow_of_ne (h : m ≠ row.id) : (db.writeRow row).find? m = db.find? m :=
  find_update_of_ne (written_id row) h

theorem recordCommand_spec {key : String} {command : LifecycleCommand}
    (h : db.recordCommand key command = .ok db') : key ∉ db.commands.map Prod.fst ∧
      db' = { db with commands := db.commands ++ [(key, command)] } := by
  simp only [recordCommand, ok_iff] at h
  obtain ⟨_, hfresh, rfl⟩ := h
  exact ⟨hfresh, rfl⟩

end LifecycleDb

end Opinions.Resolve
