import Opinions.Deposit.Admit

/-! Refunding a held deposit to its source (`application/src/credit_deposit.rs`). The
claim persists a signed attempt before its broadcast; the broadcast, a replacement
and the settlement follow as transactions of their own. Every transaction ends in a
compare-and-swap or writes only the attempts. -/

namespace Opinions.Deposit

open Lib.Result Domain.Ledger Model Store Trade Money

/-- What the signer, the rail and the chain answer, and the fresh attempt id. -/
structure RefundFacts where
  now : Instant
  seen : DepositMachineStatus
  signed : Except StoreError (List UInt8 × String × Int)
  persisted : Except StoreError Unit
  presence : Except StoreError SignaturePresence
  height : Except StoreError Int
  freshAttempt : Uuid

/-- The answer of a send transaction, and whether a broadcast and its mark follow. -/
structure RefundSent where
  receipt : RefundReceipt
  follow : Bool
  deriving DecidableEq

def storedRefund (sig : String) (db : DepositDb) : Except AppError DepositMachineRow :=
  okOr (db.depositMachineBySig sig) (.store (.notFound "deposit"))

/-- The refund's payment, which must be locked to the source of the deposit. -/
def checkedRefundPayment (row : DepositMachineRow) (db : DepositDb) :
    Except AppError OutboundPaymentRow := do
  let payment ← okOr (db.refundPaymentForDeposit row.id)
    (.store (.invariant "refund state has no outbound payment"))
  refuse (payment.subjectId ≠ row.id.uuid ∨ payment.dest ≠ row.sourceAddress ∨
    payment.amountMicro ≠ row.amount ∨ payment.railFingerprint ≠ row.railFingerprint)
    (.store (.invariant "deposit refund payment is not source-locked"))
  pure payment

def refundReceipt (row : DepositMachineRow) (payment : OutboundPaymentRow) (replayed : Bool) :
    RefundReceipt :=
  { depositId := row.id, paymentId := payment.id, dest := payment.dest, replayed := replayed }

def liveRefundAttempt (payment : OutboundPaymentRow) (missing : String) (db : DepositDb) :
    Except AppError OutboundAttemptRow := do
  let live ← (db.outbound.liveAttempt payment.id).mapError .store
  okOr live (.store (.invariant missing))

def saveRefundAttempt (a : OutboundAttemptRow) (db : DepositDb) : Except AppError DepositDb := do
  let outbound ← (db.outbound.saveAttempt a).mapError .store
  pure { db with outbound := outbound }

def insertRefundAttempt (a : OutboundAttemptRow) (db : DepositDb) : Except AppError DepositDb := do
  let outbound ← (db.outbound.insertAttempt a).mapError .store
  pure { db with outbound := outbound }

def preparedRefund (facts : RefundFacts) (payment : Uuid) (number : Int) (replaces : Option Uuid)
    (signed : List UInt8 × String × Int) : OutboundAttemptRow :=
  { id := facts.freshAttempt, paymentId := payment, attemptNumber := number
    replacesAttemptId := replaces, signedTxBytes := signed.1, signature := signed.2.1
    lastValidBlockHeight := signed.2.2, landingState := .prepared
    leaseExpiresAt := some (facts.now + lease) }

def claimRefund (facts : RefundFacts) (row : DepositMachineRow) (payment : OutboundPaymentRow)
    (db : DepositDb) : Except AppError (RefundSent × DepositDb) := do
  refuse (db.outbound.attemptsFor payment.id ≠ [])
    (.store (.invariant "approved refund already has an attempt"))
  let signed ← facts.signed.mapError .store
  let inserted ← insertRefundAttempt (preparedRefund facts payment.id 1 none signed) db
  facts.persisted.mapError .store
  let moved ← inserted.casDepositStatus row.id .refundApproved .refundSending
  pure (⟨refundReceipt row payment false, true⟩, moved)

/-- A prepared attempt whose lease has run out is looked up on the chain first. -/
def recoverPrepared (facts : RefundFacts) (row : DepositMachineRow) (payment : OutboundPaymentRow)
    (attempt : OutboundAttemptRow) (db : DepositDb) : Except AppError (RefundSent × DepositDb) := do
  let leased ← okOr attempt.leaseExpiresAt
    (.store (.invariant "prepared refund attempt has no lease"))
  refuse (facts.now < leased) (.proposalConflict "send lease still held")
  let presence := match facts.presence with
    | .ok p => p
    | .error _ => .unknown
  if presence = .present then do
    let saved ← saveRefundAttempt { attempt with landingState := .broadcast } db
    pure (⟨refundReceipt row payment true, false⟩, saved)
  else if presence = .absent ∧ stillValid facts.height attempt then
    -- the same bytes are broadcast again after this transaction
    pure (⟨refundReceipt row payment true, true⟩, db)
  else do
    let saved ← saveRefundAttempt { attempt with landingState := .unknown } db
    pure (⟨refundReceipt row payment true, false⟩, saved)

/-- A refund that is being sent goes on from the state of its live attempt. -/
def resumeRefund (facts : RefundFacts) (row : DepositMachineRow) (payment : OutboundPaymentRow)
    (db : DepositDb) : Except AppError (RefundSent × DepositDb) := do
  let attempt ← liveRefundAttempt payment "refund_sending deposit has no live attempt" db
  match attempt.landingState with
  | .broadcast => pure (⟨refundReceipt row payment true, false⟩, db)
  | .prepared => recoverPrepared facts row payment attempt db
  | .unknown => do
    let height ← facts.height.mapError .store
    refuse (attempt.lastValidBlockHeight < height)
      (.proposalConflict "refund blockhash expired; archival proof is required")
    pure (⟨refundReceipt row payment true, false⟩, db)
  | .finalized | .definitiveFailed =>
    .error (.store (.invariant "refund_sending deposit has a terminal live attempt"))

/-- `begin_refund_send`, up to the broadcast. -/
def beginRefundSend (facts : RefundFacts) (sig : String) (db : DepositDb) :
    Except AppError (RefundSent × DepositDb) := do
  let row ← storedRefund sig db
  refuse (facts.seen ≠ .refundApproved ∧ facts.seen ≠ .refundSending ∧ facts.seen ≠ .refunded)
    (.store (.conflict "deposit refund is not approved"))
  let payment ← checkedRefundPayment row db
  if facts.seen = .refunded then do
    refuse ((db.outbound.attemptsFor payment.id).countP (fun a => a.landingState = .finalized) ≠ 1)
      (.store (.invariant "refunded deposit has no unique finalized attempt"))
    pure (⟨refundReceipt row payment true, false⟩, db)
  else if facts.seen = .refundSending then resumeRefund facts row payment db
  else claimRefund facts row payment db

def markRefundBroadcast (seen : DepositMachineStatus) (sig : String) (db : DepositDb) :
    Except AppError (Unit × DepositDb) := do
  let row ← storedRefund sig db
  refuse (seen ≠ .refundSending) (.store (.conflict "deposit refund is not sending"))
  let payment ← checkedRefundPayment row db
  let attempt ← liveRefundAttempt payment "refund_sending deposit has no live attempt" db
  if attempt.landingState = .broadcast then pure ((), db)
  else do
    refuse (attempt.landingState ≠ .prepared ∧ attempt.landingState ≠ .unknown)
      (.store (.invariant "refund attempt cannot become broadcast"))
    let saved ← saveRefundAttempt { attempt with landingState := .broadcast } db
    pure ((), saved)

def refundNonLandingVerdict (lastValid : Int) (observations : List QuorumObservation)
    (expectedEndpoints : List String) : NonLandingVerdict :=
  safeNonLandingVerdict lastValid observations expectedEndpoints

def replaceRefundAttempt (facts : RefundFacts) (row : DepositMachineRow)
    (payment : OutboundPaymentRow) (old : OutboundAttemptRow) (db : DepositDb) :
    Except AppError (RefundSent × DepositDb) := do
  let attempts := db.outbound.attemptsFor payment.id
  let failed ← saveRefundAttempt { old with landingState := .definitiveFailed } db
  let signed ← facts.signed.mapError .store
  refuse (signed.2.1 ∈ attempts.map OutboundAttemptRow.signature)
    (.store (.invariant "refund replacement signature was reused"))
  let inserted ← insertRefundAttempt
    (preparedRefund facts payment.id (nextAttemptNumber attempts) (some old.id) signed) failed
  facts.persisted.mapError .store
  pure (⟨refundReceipt row payment true, true⟩, inserted)

/-- `replace_expired_refund`, up to the broadcast. Without a definitive proof only the
evidence is saved, which is no column here, and the call is refused. -/
def replaceExpiredRefund (facts : RefundFacts) (identity : RailIdentity)
    (observations : List QuorumObservation) (sig : String) (db : DepositDb) :
    Except AppError (RefundSent × DepositDb) := do
  let row ← storedRefund sig db
  refuse (facts.seen ≠ .refundSending) (.store (.conflict "deposit refund is not sending"))
  let payment ← checkedRefundPayment row db
  refuse (payment.railFingerprint ≠ identity.fingerprint)
    (.store (.invariant "refund rail identity drift"))
  let old ← liveRefundAttempt payment "refund has no live attempt" db
  refuse (old.landingState ≠ .unknown)
    (.store (.invariant "refund replacement attempt is not unknown"))
  let height ← facts.height.mapError .store
  refuse (height ≤ old.lastValidBlockHeight) (.proposalConflict "blockhash has not expired")
  refuse (refundNonLandingVerdict old.lastValidBlockHeight observations identity.rpcEndpoints ≠
    .definitiveFailed) (.proposalConflict "archival non-landing proof is not definitive")
  replaceRefundAttempt facts row payment old db

structure RefundSettlementReceipt where
  depositId : DepositId
  paymentId : Uuid
  ledgerTxn : String
  replayed : Bool

def refundKey (id : DepositId) : String := keyOf "deposit-refund:" id

def refundEntries (amount : Int) : List (Entry AccountKey) :=
  [⟨suspense, -amount⟩, ⟨cash .external, amount⟩]

def payRefund (row : DepositMachineRow) (db : DepositDb) : Except AppError DepositDb := do
  let opened := (db.ledger.account suspense).account (cash .external)
  let ledger ← (opened.ledgerApply .withdrawal (refundKey row.id)
    (refundEntries row.amount)).mapError .store
  let marked ← (({ db with ledger := ledger } : DepositDb).markRefunded row.id
    (refundKey row.id)).mapError .store
  marked.casDepositStatus row.id .refundSending .refunded

def settleRefund (seen : DepositMachineStatus) (identity : RailIdentity) (receipt : ChainReceipt)
    (sig : String) (db : DepositDb) : Except AppError (RefundSettlementReceipt × DepositDb) := do
  let row ← storedRefund sig db
  let payment ← checkedRefundPayment row db
  refuse (payment.railFingerprint ≠ identity.fingerprint)
    (.store (.invariant "refund rail identity drift"))
  let attempt ← okOr ((db.outbound.attemptsFor payment.id).find? fun a =>
    a.signature = receipt.signature)
    (.store (.invariant "finalized refund receipt has no persisted attempt"))
  (verifyChainReceipt identity payment attempt receipt).mapError fun why => .store (.invariant why)
  if seen = .refunded then do
    refuse (attempt.landingState ≠ .finalized)
      (.store (.invariant "refunded deposit attempt is not finalized"))
    let tx ← okOr row.refundTx (.store (.invariant "refunded deposit has no ledger transaction"))
    pure (⟨row.id, payment.id, tx, true⟩, db)
  else do
    refuse (seen ≠ .refundSending) (.store (.conflict "deposit refund is not sending"))
    refuse (attempt.landingState.isLive = false)
      (.store (.invariant "refund attempt is not live"))
    let saved ← saveRefundAttempt { attempt with landingState := .finalized } db
    let paid ← payRefund row saved
    pure (⟨row.id, payment.id, refundKey row.id, false⟩, paid)

end Opinions.Deposit
