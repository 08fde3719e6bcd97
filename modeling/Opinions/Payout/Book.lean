import Opinions.Credit.Machine
import Opinions.Resolve.Market
import Opinions.Vote.Cast

/-! The tables a market is resolved from (`adapters/src/pg/resolve_tx.rs`): the trading
store, the votes, the referral binds, and what the resolution itself writes about a market.
The credit tables and the receivables are not kept; where a resolution reads them they are
inputs. -/

namespace Opinions.Payout

open Lib.Result Lib.Rows Domain.Amm Domain.Integrity Domain.Market Domain.Resolution Model Store
open Trade Vote Resolve Credit

/-- The columns of a market beside its trading ones; all are null at first. -/
structure MarketColumns where
  market : MarketId
  integrityDueAt : Option Instant
  curatorFlaggedAt : Option Instant
  collateralAtClose : Option Int
  lpPnl : Option Int
  settledAt : Option Instant
  finalVoteBps : Option Nat

def MarketColumns.blank (m : MarketId) : MarketColumns :=
  { market := m, integrityDueAt := none, curatorFlaggedAt := none, collateralAtClose := none
    lpPnl := none, settledAt := none, finalVoteBps := none }

structure ReferralBind where
  id : Uuid
  referrer : UserId
  referee : UserId

structure Book where
  store : Store
  votes : VoteDb
  binds : List ReferralBind
  columns : List MarketColumns
  commands : List (String × LifecycleCommand)
  reports : List (MarketId × Verdict)

/-- What resolving a market reads outside the book. -/
structure ResolveFacts where
  now : Instant
  settledAt : Instant
  /-- The ids of the accounts, in whose order holdings are listed. -/
  accountId : AccountKey → Uuid
  receivables : UserId → List Int
  /-- Every participant has a reputation row. -/
  reps : Except AppError Unit
  /-- Saving the scores and the reputations of the voters. -/
  scored : Except AppError Unit
  credits : CreditDb
  referral : UserId → ReferralFacts
  fresh : Uuid → Uuid

/-- Sorted by id, each once. -/
def sortUsers (users : List UserId) : List UserId :=
  (users.insertionSort fun a b => a.uuid.toNat ≤ b.uuid.toNat).dedup

def sideIdx : Side → Nat
  | .yes => 0
  | .no => 1

/-- In order of the account and the outcome. -/
def listHoldings (accountId : AccountKey → Uuid) (lines : List (HoldingLine AccountKey)) :
    List (HoldingLine AccountKey) :=
  lines.insertionSort fun a b => (accountId a.account).toNat < (accountId b.account).toNat ∨
    accountId a.account = accountId b.account ∧ sideIdx a.side ≤ sideIdx b.side

theorem perm_listHoldings (accountId : AccountKey → Uuid) (lines : List (HoldingLine AccountKey)) :
    (listHoldings accountId lines).Perm lines := List.perm_insertionSort _ _

def holder (line : HoldingLine AccountKey) : HoldingOwner :=
  match line.account.owner with
  | .user user => .user user
  | _ => .pool

namespace Book

def empty : Book :=
  { store := Store.empty, votes := ⟨[], [], []⟩, binds := [], columns := [], commands := []
    reports := [] }

def column (b : Book) (m : MarketId) : MarketColumns :=
  (find MarketColumns.market m b.columns).getD (.blank m)

def setColumn (b : Book) (c : MarketColumns) : Book :=
  { b with columns := upsert MarketColumns.market c b.columns }

def setMarketState (b : Book) (m : MarketId) (state : MarketState) : Book :=
  { b with store := { b.store with
    markets := update MarketRow.id m (fun r => { r with state := state }) b.store.markets } }

def report (b : Book) (m : MarketId) : Option Verdict :=
  (find Prod.fst m b.reports).map Prod.snd

def recordCommand (b : Book) (key : String) (command : LifecycleCommand) :
    Except AppError Book := do
  refuse (key ∈ b.commands.map Prod.fst) (.store (.integrity "lifecycle_commands_pkey"))
  pure { b with commands := b.commands ++ [(key, command)] }

def voterIds (b : Book) (m : MarketId) : List UserId :=
  (b.votes.votes.filter fun v => v.market = m).map VoteRow.user

def tally (b : Book) (m : MarketId) : Tally :=
  { yesVotes := b.votes.votes.countP fun v => v.market = m ∧ v.side = .yes
    noVotes := b.votes.votes.countP fun v => v.market = m ∧ v.side = .no }

def openInterest (b : Book) (m : MarketId) : Int :=
  ((b.store.positions.filter fun p => p.outcome.market = m).map PositionRow.cost).sum

def escrowBalance (b : Book) (m : MarketId) : Except StoreError Int := do
  refuse (¬b.store.ledger.Opened (cash (.marketEscrow m))) (.notFound "market escrow account")
  pure (b.store.escrow m)

/-- The referees of binds that traded in the market. -/
def referees (b : Book) (m : MarketId) : List UserId :=
  sortUsers ((b.binds.filter fun bind => b.store.trades.any fun t =>
    t.user = bind.referee ∧ t.outcome.market = m).map ReferralBind.referee)

def bindFor (b : Book) (referee : UserId) : Option ReferralBind :=
  find ReferralBind.referee referee b.binds

/-- Both parties of every bind that a payout of the market may grant for. -/
def referralRelevantUsers (b : Book) (m : MarketId) : List UserId :=
  sortUsers ((b.referees m).flatMap fun referee => match b.bindFor referee with
    | none => []
    | some bind => if bind.referrer = referee then [] else [bind.referrer, referee])

structure Participants where
  voters : List UserId
  all : List UserId

/-- `resolution_participants`: voters, referral parties and holders. -/
def participants (b : Book) (m : MarketId) : Except AppError Participants := do
  let voters := sortUsers (b.voterIds m)
  let holdings ← b.store.holdings m
  let holders := holdings.filterMap fun line => match holder line with
    | .user user => some user
    | .pool => none
  pure ⟨voters, sortUsers (voters ++ b.referralRelevantUsers m ++ holders)⟩

end Book

end Opinions.Payout
