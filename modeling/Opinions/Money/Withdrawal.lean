import Opinions.Trade.Place

/-! Withdrawal vocabulary (`application/src/money/types.rs`). A row's state is a
triple of status, review and send state; fifteen triples are legal and have a
published label. -/

namespace Opinions.Money

open Model Trade

structure WithdrawalId where
  uuid : Uuid
  deriving DecidableEq

inductive WithdrawalStatus
  | queued
  | riskHold
  | sent
  | settled
  | denied
  | failed
  deriving DecidableEq

inductive WithdrawalReviewState
  | screening
  | reviewRequired
  | approvalProposed
  | approved
  deriving DecidableEq

inductive WithdrawalSendState
  | unsent
  | sending
  | broadcast
  | finalized
  | definitiveFailed
  | unknown
  deriving DecidableEq

structure Combo where
  status : WithdrawalStatus
  review : WithdrawalReviewState
  send : WithdrawalSendState
  deriving DecidableEq

variable {c : Combo}

namespace Combo

def w1 : Combo := ⟨.queued, .screening, .unsent⟩
def w2 : Combo := ⟨.queued, .approved, .unsent⟩
def w3 : Combo := ⟨.queued, .approved, .sending⟩
def w4 : Combo := ⟨.riskHold, .reviewRequired, .unsent⟩
def w5 : Combo := ⟨.riskHold, .approvalProposed, .unsent⟩
def w6 : Combo := ⟨.sent, .approved, .broadcast⟩
def w7 : Combo := ⟨.sent, .approved, .unknown⟩
def w8 : Combo := ⟨.sent, .approved, .sending⟩
def w9 : Combo := ⟨.sent, .approved, .finalized⟩
def w10 : Combo := ⟨.settled, .approved, .finalized⟩
def w11 : Combo := ⟨.denied, .screening, .unsent⟩
def w12 : Combo := ⟨.denied, .reviewRequired, .unsent⟩
def w13 : Combo := ⟨.denied, .approvalProposed, .unsent⟩
def w14 : Combo := ⟨.denied, .approved, .unsent⟩
def w15 : Combo := ⟨.failed, .approved, .definitiveFailed⟩

/-- The published label, absent for an illegal triple. -/
def label : Combo → Option String
  | ⟨.queued, .screening, .unsent⟩ => some "W1"
  | ⟨.queued, .approved, .unsent⟩ => some "W2"
  | ⟨.queued, .approved, .sending⟩ => some "W3"
  | ⟨.riskHold, .reviewRequired, .unsent⟩ => some "W4"
  | ⟨.riskHold, .approvalProposed, .unsent⟩ => some "W5"
  | ⟨.sent, .approved, .broadcast⟩ => some "W6"
  | ⟨.sent, .approved, .unknown⟩ => some "W7"
  | ⟨.sent, .approved, .sending⟩ => some "W8"
  | ⟨.sent, .approved, .finalized⟩ => some "W9"
  | ⟨.settled, .approved, .finalized⟩ => some "W10"
  | ⟨.denied, .screening, .unsent⟩ => some "W11"
  | ⟨.denied, .reviewRequired, .unsent⟩ => some "W12"
  | ⟨.denied, .approvalProposed, .unsent⟩ => some "W13"
  | ⟨.denied, .approved, .unsent⟩ => some "W14"
  | ⟨.failed, .approved, .definitiveFailed⟩ => some "W15"
  | _ => none

def isLegal (c : Combo) : Bool := c.label.isSome

/-- The rows of the published table. -/
def table : List Combo := [w1, w2, w3, w4, w5, w6, w7, w8, w9, w10, w11, w12, w13, w14, w15]

theorem isLegal_iff (c : Combo) : c.isLegal = true ↔ c ∈ table := by
  rcases c with ⟨status, review, send⟩
  cases status <;> cases review <;> cases send <;> decide

/-- Where a denial takes an unsent row. -/
def denyTarget : Combo → Option Combo
  | ⟨.queued, .screening, .unsent⟩ => some w11
  | ⟨.queued, .approved, .unsent⟩ => some w14
  | ⟨.riskHold, .reviewRequired, .unsent⟩ => some w12
  | ⟨.riskHold, .approvalProposed, .unsent⟩ => some w13
  | _ => none

def hasActiveHold (c : Combo) : Bool :=
  match c.status with
  | .denied | .failed | .settled => false
  | _ => true

theorem denyTarget_spec {t : Combo} (h : c.denyTarget = some t) :
    c.hasActiveHold = true ∧ t.isLegal = true ∧ t.status = .denied := by
  unfold denyTarget at h
  split at h <;> cases h <;> exact ⟨rfl, rfl, rfl⟩

theorem denyTarget_send {t : Combo} (h : c.denyTarget = some t) : t.send = c.send := by
  unfold denyTarget at h
  split at h <;> cases h <;> rfl

theorem unsent_of_denied (hlegal : c.isLegal = true) (h : c.status = .denied) :
    c.send = .unsent := by
  rw [isLegal_iff] at hlegal
  revert h
  revert c
  decide

theorem w10_of_settled (hlegal : c.isLegal = true) (h : c.status = .settled) : c = .w10 := by
  rcases c with ⟨status, review, send⟩
  obtain rfl : status = .settled := h
  cases review <;> cases send <;> first | rfl | cases hlegal

theorem finalized_cases (hlegal : c.isLegal = true) (h : c.send = .finalized) :
    c = .w9 ∨ c = .w10 := by
  rw [isLegal_iff] at hlegal
  revert h
  revert c
  decide

end Combo

structure WithdrawalRow where
  id : WithdrawalId
  user : UserId
  dest : String
  amountMicro : Int
  combo : Combo
  /-- Ledger transactions are named by their key. -/
  holdTx : String
  releaseTx : Option String
  settleTx : Option String
  requestFingerprint : String
  riskReasons : List String
  requestedAt : Instant
  decidedAt : Option Instant
  sentAt : Option Instant
  settledAt : Option Instant
  deriving DecidableEq

inductive OutboundSubject
  | withdrawal
  | depositRefund
  deriving DecidableEq

structure OutboundPaymentRow where
  id : Uuid
  subject : OutboundSubject
  subjectId : Uuid
  dest : String
  amountMicro : Int
  railFingerprint : String
  deriving DecidableEq

inductive LandingState
  | prepared
  | broadcast
  | unknown
  | finalized
  | definitiveFailed
  deriving DecidableEq

def LandingState.isLive : LandingState → Bool
  | .prepared | .broadcast | .unknown => true
  | .finalized | .definitiveFailed => false

structure OutboundAttemptRow where
  id : Uuid
  paymentId : Uuid
  attemptNumber : Int
  replacesAttemptId : Option Uuid
  signedTxBytes : List UInt8
  signature : String
  lastValidBlockHeight : Int
  landingState : LandingState
  leaseExpiresAt : Option Instant
  deriving DecidableEq

structure RailIdentity where
  genesisHash : String
  rpcEndpoints : List String
  usdcMint : String
  decimals : Nat
  treasuryOwner : String
  treasuryTokenAccount : String
  commitment : String

/-- The stamped text of an identity; the endpoints enter in sorted order. -/
def RailIdentity.fingerprint (i : RailIdentity) : String :=
  "|".intercalate [i.genesisHash, i.usdcMint, toString i.decimals, i.treasuryOwner,
    i.treasuryTokenAccount, i.commitment,
    ",".intercalate (i.rpcEndpoints.insertionSort fun a b => a ≤ b), "depth=finalized-roots"]

structure ChainReceipt where
  signature : String
  mint : String
  source : String
  destTokenAccount : String
  deltaMicro : Int
  commitment : String

def verifyChainReceipt (identity : RailIdentity) (payment : OutboundPaymentRow)
    (attempt : OutboundAttemptRow) (receipt : ChainReceipt) : Except String Unit :=
  if receipt.commitment ≠ "finalized" ∨ identity.commitment ≠ "finalized" then
    .error "commitment must be finalized"
  else if receipt.signature ≠ attempt.signature then .error "signature mismatch"
  else if receipt.mint ≠ identity.usdcMint then .error "mint mismatch"
  else if receipt.source ≠ identity.treasuryTokenAccount then .error "source mismatch"
  else if receipt.destTokenAccount ≠ payment.dest then .error "dest mismatch"
  else if receipt.deltaMicro ≠ payment.amountMicro then .error "delta mismatch"
  else .ok ()

structure QuorumObservation where
  endpoint : String
  finalizedHeight : Option Int
  signaturePresent : Option Bool
  pruned : Bool

inductive NonLandingVerdict
  | definitiveFailed
  | unknown
  deriving DecidableEq

/-- An observation that cannot vote makes the verdict unknown; otherwise two
endpoints past the block height without the signature decide. -/
def nonLandingVerdict (lastValid : Int) (observations : List QuorumObservation) :
    NonLandingVerdict :=
  if observations.any fun o => o.pruned || o.finalizedHeight.isNone || o.signaturePresent.isNone
  then .unknown
  else
    let failVotes := observations.countP fun o =>
      lastValid < o.finalizedHeight.getD 0 && !o.signaturePresent.getD true
    if 2 ≤ failVotes then .definitiveFailed else .unknown

/-- The verdict of exactly the three pinned endpoints, none of which saw the
signature. -/
def safeNonLandingVerdict (lastValid : Int) (observations : List QuorumObservation)
    (expectedEndpoints : List String) : NonLandingVerdict :=
  let endpoints := (observations.map QuorumObservation.endpoint).dedup
  if observations.length ≠ 3 ∨ endpoints.length ≠ 3 ∨
      ¬(endpoints ⊆ expectedEndpoints ∧ expectedEndpoints ⊆ endpoints) ∨
      observations.any (fun o => o.signaturePresent == some true) then .unknown
  else nonLandingVerdict lastValid observations

end Opinions.Money
