import Opinions.Money.Outbound
import Opinions.Trade.Frame

/-! The tables a withdrawal transaction reads and writes
(`adapters/src/pg/withdraw_tx.rs`). What it reads elsewhere (limits, the user's
standing, screenings, flags, receivables) is an input of each call. The withdrawals
table's combination check is left out; that no step breaks it is a result. -/

namespace Opinions.Money

open Lib.Checked Lib.Result Lib.Rows Model Store Trade

inductive ProposalStatus
  | pending
  | confirmed
  | rejected
  | expired
  deriving DecidableEq

structure MoneyProposal where
  id : Uuid
  kind : String
  subjectId : Uuid
  payloadHash : String
  proposerTokenId : String
  confirmerTokenId : Option String
  reason : String
  status : ProposalStatus
  confirmNotBefore : Instant
  expiresAt : Instant
  replayKey : String

/-- The replay-stable answer to a request. -/
structure WithdrawalReceipt where
  id : Option WithdrawalId
  user : UserId
  dest : String
  amountMicro : Int
  combo : Option Combo
  holdTx : Option String
  replayed : Bool
  refused : Bool
  refuseCode : Option String
  refuseMessage : Option String
  deriving DecidableEq

/-- An event row; only a finance approval's amount is ever read back. -/
structure WithdrawalEvent where
  withdrawal : WithdrawalId
  kind : String
  actor : String
  recordedAt : Instant
  amountMicro : Option Int

structure MoneyDb where
  ledger : Ledger
  withdrawals : List WithdrawalRow
  outbound : Outbound
  proposals : List MoneyProposal
  intents : List (String × WithdrawalReceipt)
  idempotency : List (String × String)
  events : List WithdrawalEvent

/-- The two digests the use cases take: of a request's intent, and of the payload a
proposal is about. -/
structure Digests where
  intent : UserId → Int → String → String
  payload : WithdrawalId → Int → String

inductive UserStatus
  | active
  | shadowLimited
  | banned
  deriving DecidableEq

structure UserMoneyView where
  status : UserStatus
  kycTier : Int
  selfExcludedUntil : Option Instant

structure WithdrawLimits where
  minMicro : Int
  maxMicro : Int
  dailyMicro : Int
  autoApproveMicro : Int
  dualControlMicro : Int
  destWarmFloorMicro : Int
  destWarmAgeHours : Int
  destDailyMicro : Int
  hotDailyMicro : Int
  withdrawKycTier : Int
  pauseWithdrawals : Bool
  approveDailyCapMicro : Int
  deriving DecidableEq

inductive ScreenVerdict
  | clear (checkedAt expiresAt : Instant) (policyVersion : String)
  | hit
  | indeterminate
  deriving DecidableEq

structure MoneyFacts where
  now : Instant
  dbNow : Instant
  limits : Except StoreError WithdrawLimits
  view : Except StoreError UserMoneyView
  openAmlFlags : Except StoreError Nat
  sanctions : Option ScreenVerdict
  geo : Option ScreenVerdict
  isRefundDest : Bool
  isObservationSource : Bool
  receivables : List Int

def hours (n : Int) : Int := n * 3600000000000

def minutes (n : Int) : Int := n * 60000000000

def isFreshClear (verdict : Option ScreenVerdict) (now : Instant) : Bool :=
  match verdict with
  | some (.clear checkedAt expiresAt policyVersion) =>
    checkedAt ≤ now ∧ now < expiresAt ∧ policyVersion ≠ ""
  | _ => false

structure DestWarmth where
  settledMicro : Int
  firstSettledAt : Option Instant
  distinctUsers : Nat
  isRefundDest : Bool

def DestWarmth.isWarm (w : DestWarmth) (limits : WithdrawLimits) (now : Instant) : Bool :=
  !(w.isRefundDest || 2 ≤ w.distinctUsers) && limits.destWarmFloorMicro ≤ w.settledMicro &&
    w.firstSettledAt.elim false fun first => hours limits.destWarmAgeHours ≤ now - first

def reasonIf (p : Prop) [Decidable p] (reason : String) : List String := if p then [reason] else []

/-- Tighten only: what is new goes to the end. -/
def unionReasons (snapshot current : List String) : List String :=
  current.foldl (fun out r => if r ∈ out then out else out ++ [r]) snapshot

def blocksAutoApprove (reasons : List String) : Bool := !reasons.isEmpty

def saturatingAdd (a b : Int) : Int :=
  max (-9223372036854775808) (min (a + b) 9223372036854775807)

/-- Below the end of the range a saturated sum is the sum. -/
theorem le_of_saturatingAdd {a b limit : Int} (hlimit : limit < 9223372036854775807)
    (h : saturatingAdd a b ≤ limit) : a + b ≤ limit := by
  unfold saturatingAdd at h
  omega

/-- The proposal with the columns a save may write. -/
def MoneyProposal.saved (p row : MoneyProposal) : MoneyProposal :=
  { row with status := p.status, confirmerTokenId := p.confirmerTokenId }

namespace MoneyDb

def withdrawal (db : MoneyDb) (id : WithdrawalId) : Option WithdrawalRow :=
  find WithdrawalRow.id id db.withdrawals

def bigint (x : Int) : Except StoreError Int := okOr (tryI64 x) (.backend "bigint out of range")

/-- The amounts requested since an instant that are neither denied nor failed. -/
def windowSum (db : MoneyDb) (p : WithdrawalRow → Bool) (since : Instant) : Except StoreError Int :=
  bigint ((db.withdrawals.filter fun r => p r ∧ since ≤ r.requestedAt ∧
    r.combo.status ≠ .denied ∧ r.combo.status ≠ .failed).map WithdrawalRow.amountMicro).sum

/-- The settled rows of a destination that are not dust. -/
def settledTo (db : MoneyDb) (dest : String) (dustFloor : Int) : List WithdrawalRow :=
  db.withdrawals.filter fun r =>
    r.dest = dest ∧ r.combo.status = .settled ∧ dustFloor ≤ r.amountMicro

def destWarmth (db : MoneyDb) (facts : MoneyFacts) (limits : WithdrawLimits) (dest : String) :
    Except StoreError DestWarmth := do
  let settled := db.settledTo dest limits.minMicro
  let settledMicro ← bigint (settled.map WithdrawalRow.amountMicro).sum
  pure { settledMicro := settledMicro
         firstSettledAt := (settled.filterMap WithdrawalRow.settledAt).min?
         distinctUsers := (settled.map WithdrawalRow.user).dedup.length
         isRefundDest := facts.isRefundDest }

/-- A self-excluded user may still pay out to a destination of their own. -/
def isSelfExclusionEgress (db : MoneyDb) (facts : MoneyFacts) (user : UserId) (dest : String) :
    Bool :=
  (db.withdrawals.any fun r => r.user = user ∧ r.dest = dest ∧ r.combo.status = .settled) ||
    facts.isObservationSource

def financeApproveSumSince (db : MoneyDb) (since : Instant) : Except StoreError Int :=
  bigint ((db.events.filter fun e => e.kind = "finance-approve" ∧ since ≤ e.recordedAt).map
    fun e => e.amountMicro.getD 0).sum

def appendEvent (db : MoneyDb) (facts : MoneyFacts) (withdrawal : WithdrawalId)
    (kind actor : String) (amountMicro : Option Int) : MoneyDb :=
  { db with events := db.events ++
      [{ withdrawal := withdrawal, kind := kind, actor := actor, recordedAt := facts.dbNow
         amountMicro := amountMicro }] }

def insertWithdrawal (db : MoneyDb) (row : WithdrawalRow) : Except StoreError MoneyDb := do
  refuse (row.id ∈ db.withdrawals.map WithdrawalRow.id) (.integrity "withdrawals_pkey")
  pure { db with withdrawals := db.withdrawals ++ [row] }

/-- The row with the columns a compare-and-swap writes. -/
def written (next row : WithdrawalRow) : WithdrawalRow :=
  { row with combo := next.combo, releaseTx := next.releaseTx, settleTx := next.settleTx
             riskReasons := next.riskReasons, decidedAt := next.decidedAt
             sentAt := next.sentAt, settledAt := next.settledAt }

theorem written_id (next row : WithdrawalRow) : (written next row).id = row.id := rfl

def writeRow (db : MoneyDb) (id : WithdrawalId) (next : WithdrawalRow) : MoneyDb :=
  { db with withdrawals := update WithdrawalRow.id id (written next) db.withdrawals }

/-- Every caller turns a lost compare-and-swap into an illegal transition. -/
def casWithdrawal (db : MoneyDb) (id : WithdrawalId) (expected : Combo) (next : WithdrawalRow) :
    Except AppError MoneyDb := do
  refuse ((db.withdrawal id).map WithdrawalRow.combo ≠ some expected) .illegalTransition
  pure (db.writeRow id next)

def applyHold (db : MoneyDb) (user : UserId) (amountMicro : Int) (key : String) :
    Except StoreError MoneyDb := do
  let ledger ← db.ledger.twoLeg .withdrawal key ⟨cash (.user user), -amountMicro⟩
    ⟨cash .withheld, amountMicro⟩
  pure { db with ledger := ledger }

def applyRelease (db : MoneyDb) (user : UserId) (amountMicro : Int) (key : String) :
    Except StoreError MoneyDb := do
  let ledger ← db.ledger.twoLeg .reversal key ⟨cash .withheld, -amountMicro⟩
    ⟨cash (.user user), amountMicro⟩
  pure { db with ledger := ledger }

def applySettle (db : MoneyDb) (amountMicro : Int) (key : String) : Except StoreError MoneyDb := do
  let ledger ← db.ledger.twoLeg .withdrawal key ⟨cash .withheld, -amountMicro⟩
    ⟨cash .external, amountMicro⟩
  pure { db with ledger := ledger }

def openProposalFor (db : MoneyDb) (subject : Uuid) (kind : String) : Option MoneyProposal :=
  db.proposals.find? fun p => p.subjectId = subject ∧ p.kind = kind ∧ p.status = .pending

def insertProposal (db : MoneyDb) (p : MoneyProposal) : Except StoreError MoneyDb := do
  refuse (p.id ∈ db.proposals.map MoneyProposal.id) (.integrity "money_command_proposals_pkey")
  refuse (p.replayKey ∈ db.proposals.map MoneyProposal.replayKey)
    (.integrity "money_command_proposals_replay_key_key")
  refuse (p.expiresAt ≤ p.confirmNotBefore) (.integrity "money_command_proposals_check")
  refuse (p.status = .pending ∧ (db.openProposalFor p.subjectId p.kind).isSome)
    (.integrity "money_command_proposals_one_pending_subject_kind_uk")
  pure { db with proposals := db.proposals ++ [p] }

/-- Only a pending proposal changes, and a confirmer is never the proposer. -/
def saveProposal (db : MoneyDb) (p : MoneyProposal) : Except StoreError MoneyDb := do
  let current ← okOr (find MoneyProposal.id p.id db.proposals) (.conflict "money proposal changed")
  refuse (current.status ≠ .pending) (.conflict "money proposal changed")
  refuse (p.confirmerTokenId = some current.proposerTokenId)
    (.integrity "money_command_proposals_check1")
  pure { db with proposals := update MoneyProposal.id p.id p.saved db.proposals }

end MoneyDb

end Opinions.Money
