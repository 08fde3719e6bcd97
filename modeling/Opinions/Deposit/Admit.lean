import Opinions.Deposit.Tables

/-! Observing and admitting deposits (`application/src/credit_deposit.rs`). A finalized
observation is booked into suspense; admission moves it to its user or holds it, and a
held deposit leaves by re-evaluation, by a manual admission or by a refund, the last two
under dual control. The confirming transactions do not take the admitting ones' lock, so
the status read first may be out of date: it is an input, and the compare-and-swap decides. -/

namespace Opinions.Deposit

open Lib.Checked Lib.Result Domain.Ledger Model Store Trade Money

def suspense : AccountKey := cash .depositSuspense

def keyOf (family : String) (id : DepositId) : String := family ++ String.ofList id.uuid.text

def observeKey (sig : String) : String := "deposit-observe:" ++ sig

def admitKey (id : DepositId) : String := keyOf "deposit-admit:" id

structure ObservationReceipt where
  depositId : DepositId
  suspenseTx : String
  replayed : Bool

def validateObservation (o : ObservedDeposit) : Except StoreError Unit := do
  refuse (o.amount ≤ 0) (.invariant "deposit amount must be positive")
  refuse (o.chainSig = "" ∨ o.sourceAddress = "" ∨ o.destAddress = "" ∨ o.mint = "")
    (.invariant "deposit observation identity incomplete")
  refuse (o.slot < 0) (.invariant "deposit slot must be non-negative")

def sameObservation (existing : DepositMachineRow) (o : ObservedDeposit)
    (railFingerprint : String) : Bool :=
  existing.user = o.user ∧ existing.amount = o.amount ∧ existing.chainSig = o.chainSig ∧
    existing.sourceAddress = o.sourceAddress ∧ existing.destAddress = o.destAddress ∧
    existing.mint = o.mint ∧ existing.railFingerprint = railFingerprint ∧ existing.slot = o.slot

def observeEntries (amount : Int) : List (Entry AccountKey) :=
  [⟨cash .external, -amount⟩, ⟨suspense, amount⟩]

def observeFinalizedOnRail (o : ObservedDeposit) (railFingerprint : String) (freshId : DepositId)
    (db : DepositDb) : Except AppError (ObservationReceipt × DepositDb) := do
  (validateObservation o).mapError .store
  refuse (railFingerprint = "") (.store (.invariant "deposit rail fingerprint missing"))
  match db.depositMachineBySig o.chainSig with
  | some existing => do
    refuse (sameObservation existing o railFingerprint = false)
      (.store (.conflict "deposit observation binding"))
    let tx ← okOr existing.suspenseTx
      (.store (.invariant "observed deposit has no suspense transaction"))
    pure (⟨existing.id, tx, true⟩, db)
  | none => do
    let key := observeKey o.chainSig
    let opened := (db.ledger.account (cash .external)).account suspense
    let ledger ← (opened.ledgerApply .deposit key (observeEntries o.amount)).mapError .store
    let observed ← (({ db with ledger := ledger } : DepositDb).observeDeposit o key
      railFingerprint freshId).mapError .store
    pure (⟨freshId, key, false⟩, observed)

structure DepositReceipt where
  depositId : DepositId
  ledgerTxn : Option String
  replayed : Bool
  collectedMicro : Int
  deriving DecidableEq

structure Ingress where
  lots : List LotFact
  receivables : List Int

/-- Convert and collect, with the amount collected. -/
def collecting (l : Ledger) (user : UserId) (key : String) (ingress : Ingress) :
    Except AppError (Int × Ledger) := do
  let converted ← ingress.lots.foldlM (convertLot user) l
  let ledger ← autoCollect converted user key ingress.receivables
  pure (min ingress.receivables.sum (max (converted.balanceOf (cash (.user user))) 0), ledger)

theorem collecting_spec {l l' : Ledger} {user : UserId} {key : String} {ingress : Ingress}
    {collected : Int} (h : collecting l user key ingress = .ok (collected, l')) :
    convertThenCollect l user key ingress.lots ingress.receivables = .ok l' := by
  simp only [collecting, ok_iff] at h
  obtain ⟨converted, hconvert, ledger, hcollect, -, rfl⟩ := h
  rwa [convertThenCollect, hconvert]

structure AdmitFacts where
  seen : DepositMachineStatus
  amlOpen : Except StoreError Bool
  before : Ingress
  banned : Except StoreError Bool
  gate : Except AppError Unit
  afterwards : Ingress

/-- The refusals that hold a deposit; any other stops the transaction. -/
def admissionHoldReason : AppError → Option String
  | .complianceHold reason => some reason
  | .moneyForbidden reason => some reason
  | .depositsPaused => some "pause_deposits"
  | .positionCapExceeded _ _ => some "shadow_deposit_cap"
  | _ => none

def existingReceipt (row : DepositMachineRow) : DepositReceipt :=
  { depositId := row.id, ledgerTxn := (row.admitTx.or row.refundTx).or row.suspenseTx
    replayed := true, collectedMicro := 0 }

def holdAdmission (row : DepositMachineRow) (collected : Int) (db : DepositDb) :
    Except AppError (DepositReceipt × DepositDb) := do
  let held ← db.casDepositStatus row.id .admissionPending .complianceHold
  pure ({ depositId := row.id, ledgerTxn := row.suspenseTx, replayed := false
          collectedMicro := collected }, held)

def admitEntries (user : UserId) (amount : Int) : List (Entry AccountKey) :=
  [⟨suspense, -amount⟩, ⟨cash (.user user), amount⟩]

/-- The deposit goes from `start` to its user, and the user's debts are collected
again. -/
def admitFrom (start : DepositMachineStatus) (user : UserId) (row : DepositMachineRow)
    (collected : Int) (afterwards : Ingress) (db : DepositDb) :
    Except AppError (DepositReceipt × DepositDb) := do
  let opened := (db.ledger.account suspense).account (cash (.user user))
  let ledger ← (opened.ledgerApply .deposit (admitKey row.id)
    (admitEntries user row.amount)).mapError .store
  let marked ← (({ db with ledger := ledger } : DepositDb).markAdmitted row.id
    (admitKey row.id)).mapError .store
  let moved ← marked.casDepositStatus row.id start .admitted
  let (more, ledger) ← collecting moved.ledger user (admitKey row.id) afterwards
  let total ← okOr (tryI64 (collected + more)) .overflow
  pure ({ depositId := row.id, ledgerTxn := some (admitKey row.id), replayed := false
          collectedMicro := total }, { moved with ledger := ledger })

/-- A deposit that is not pending yet becomes so first. -/
def startAdmission (row : DepositMachineRow) (db : DepositDb) : Except AppError DepositDb :=
  if row.status = .admissionPending then .ok db
  else db.casDepositStatus row.id row.status .admissionPending

/-- The checks of an admission, after which the deposit is held or admitted. -/
def decideAdmission (facts : AdmitFacts) (row : DepositMachineRow) (pending : DepositDb) :
    Except AppError (DepositReceipt × DepositDb) :=
  match row.user with
  | none => holdAdmission row 0 pending
  | some user => do
    let flagged ← facts.amlOpen.mapError .store
    if flagged then holdAdmission row 0 pending
    else do
      let (collected, ledger) ← collecting pending.ledger user (keyOf "deposit-lock:" row.id)
        facts.before
      let swept : DepositDb := { pending with ledger := ledger }
      let banned ← facts.banned.mapError .store
      match if banned then .error (.complianceHold "banned") else facts.gate with
      | .error e =>
        if (admissionHoldReason e).isSome then holdAdmission row collected swept else .error e
      | .ok () => admitFrom .admissionPending user row collected facts.afterwards swept

def admitOpen (facts : AdmitFacts) (row : DepositMachineRow) (db : DepositDb) :
    Except AppError (DepositReceipt × DepositDb) := do
  let pending ← startAdmission row db
  decideAdmission facts row pending

def admitObserved (facts : AdmitFacts) (sig : String) (actor : AdminContext)
    (reevaluateHold : Bool) (db : DepositDb) : Except AppError (DepositReceipt × DepositDb) := do
  refuse (reevaluateHold = true ∧ actor ≠ .machine) (.adminForbidden
    "held deposit reevaluation is machine-only; use dual control for a manual admission")
  let stored ← okOr (db.depositMachineBySig sig) (.store (.notFound "deposit"))
  let row := { stored with status := facts.seen }
  match facts.seen with
  | .admitted | .admittedLegacy => pure (existingReceipt row, db)
  | .complianceHold =>
    if reevaluateHold then admitOpen facts row db else pure (existingReceipt row, db)
  | .refundApproved | .refundSending | .refunded =>
    .error (.store (.conflict "deposit refund already selected"))
  | .observedFinalized | .admissionPending => admitOpen facts row db

def manualDepositAdmit : String := "manual_deposit_admit"

def depositRefund : String := "deposit_refund"

def requireAdmin (actor : AdminContext) : Except AppError (String × AdminRole) :=
  match actor with
  | .admin digest role => .ok (digest, role)
  | .machine => .error (.adminForbidden "compliance commands require an admin actor")

def requireRole (role : AdminRole) (allowed : List AdminRole) : Except AppError Unit :=
  refuse (role ∉ allowed) (.adminForbidden "role is not permitted for this compliance command")

def depositCommandPayload (kind : String) (row : DepositMachineRow) : String :=
  "|".intercalate [kind, String.ofList row.id.uuid.text, toString row.amount, row.sourceAddress,
    row.chainSig, row.railFingerprint]

/-- `hash` is the digest of a payload. -/
def proposeDepositCommand (hash : String → String) (now : Instant) (seen : DepositMachineStatus)
    (deposit : DepositId) (refund : Bool) (reason : String) (actor : AdminContext) (freshId : Uuid)
    (db : DepositDb) : Except AppError (MoneyProposal × DepositDb) := do
  let (digest, role) ← requireAdmin actor
  requireRole role [.finance]
  requireReason reason
  let kind := if refund then depositRefund else manualDepositAdmit
  let replayKey := keyOf (kind ++ ":") deposit
  let row ← okOr (db.depositMachineById deposit) (.store (.notFound "deposit"))
  refuse (seen ≠ .complianceHold) (.store (.conflict "deposit is not held"))
  let payloadHash := hash (depositCommandPayload kind row)
  match db.proposalByReplay replayKey with
  | some existing => do
    refuse (existing.kind ≠ kind ∨ existing.subjectId ≠ deposit.uuid ∨
      existing.payloadHash ≠ payloadHash) (.proposalConflict "deposit proposal drift")
    pure (existing, db)
  | none => do
    let p : MoneyProposal :=
      { id := freshId, kind := kind, subjectId := deposit.uuid, payloadHash := payloadHash
        proposerTokenId := digest, confirmerTokenId := none, reason := reason, status := .pending
        confirmNotBefore := now, expiresAt := now + confirmWindow, replayKey := replayKey }
    let proposed ← (db.insertProposal p).mapError .store
    pure (p, proposed)

def validateDepositProposal (p : MoneyProposal) (kind confirmer : String) (now : Instant) :
    Except AppError Unit := do
  refuse (p.proposerTokenId = confirmer)
    (.adminForbidden "confirmer token must be distinct from proposer")
  refuse (p.kind ≠ kind) (.proposalConflict "wrong deposit proposal kind")
  refuse (p.status ≠ .pending) (.proposalConflict "proposal is not pending")
  refuse (now < p.confirmNotBefore ∨ p.expiresAt < now)
    (.proposalConflict "proposal not confirmable")

def validateDepositProposalPayload (hash : String → String) (p : MoneyProposal)
    (row : DepositMachineRow) : Except AppError Unit :=
  refuse (p.subjectId ≠ row.id.uuid ∨ p.payloadHash ≠ hash (depositCommandPayload p.kind row))
    (.proposalConflict "deposit proposal drift")

structure ConfirmFacts where
  now : Instant
  seen : DepositMachineStatus
  before : Ingress
  afterwards : Ingress
  banned : Except StoreError Bool
  geoClear : Except StoreError Bool
  sanctionsClear : Except StoreError Bool
  freshPayment : Uuid

/-- The checks both confirmations share: the confirmer, the proposal and the row. -/
def confirmable (hash : String → String) (facts : ConfirmFacts) (kind notHeld : String)
    (proposal : Uuid) (actor : AdminContext) (db : DepositDb) :
    Except AppError (String × MoneyProposal × DepositMachineRow) := do
  let (digest, role) ← requireAdmin actor
  requireRole role [.superadmin]
  let p ← (db.proposalById proposal).mapError .store
  validateDepositProposal p kind digest facts.now
  let row ← okOr (db.depositMachineById ⟨p.subjectId⟩) (.store (.notFound "deposit"))
  validateDepositProposalPayload hash p row
  refuse (facts.seen ≠ .complianceHold) (.store (.conflict notHeld))
  pure (digest, p, row)

/-- Confirm the proposal, unless another confirmation was lost. -/
def confirmDepositProposal (p : MoneyProposal) (digest : String) (db : DepositDb) :
    Except AppError DepositDb := do
  let (stored, confirmed) ← (db.confirmProposal p.id digest).mapError .store
  refuse (stored.status ≠ .confirmed) (.proposalConflict "proposal confirmation lost")
  pure confirmed

def confirmManualDepositAdmission (hash : String → String) (facts : ConfirmFacts)
    (proposal : Uuid) (actor : AdminContext) (db : DepositDb) :
    Except AppError (DepositReceipt × DepositDb) := do
  let (digest, p, row) ← confirmable hash facts manualDepositAdmit "deposit is not held" proposal
    actor db
  let user ← okOr row.user (.store (.invariant "unmatched deposit cannot be admitted"))
  let (collected, ledger) ← collecting db.ledger user (keyOf "manual-deposit-admit-lock:" row.id)
    facts.before
  let (receipt, admitted) ← admitFrom .complianceHold user row collected facts.afterwards
    { db with ledger := ledger }
  let confirmed ← confirmDepositProposal p digest admitted
  pure (receipt, confirmed)

structure RefundReceipt where
  depositId : DepositId
  paymentId : Uuid
  dest : String
  replayed : Bool
  deriving DecidableEq

/-- Neither banned nor without fresh clearances. -/
def refundClear (facts : ConfirmFacts) : Except StoreError Bool := do
  let banned ← facts.banned
  if banned then pure false
  else do
    let geo ← facts.geoClear
    if geo then facts.sanctionsClear else pure false

/-- A matched user's debts are collected and their screenings checked. -/
def clearRefund (facts : ConfirmFacts) (row : DepositMachineRow) (db : DepositDb) :
    Except AppError DepositDb :=
  match row.user with
  | none => .ok db
  | some user => do
    let (_, ledger) ← collecting db.ledger user (keyOf "deposit-refund-lock:" row.id) facts.before
    let clear ← (refundClear facts).mapError .store
    refuse (clear = false) (.complianceHold "refund_requires_clear")
    pure { db with ledger := ledger }

def refundPayment (row : DepositMachineRow) (freshId : Uuid) : OutboundPaymentRow :=
  { id := freshId, subject := .depositRefund, subjectId := row.id.uuid, dest := row.sourceAddress
    amountMicro := row.amount, railFingerprint := row.railFingerprint }

def confirmDepositRefund (hash : String → String) (facts : ConfirmFacts) (proposal : Uuid)
    (actor : AdminContext) (db : DepositDb) : Except AppError (RefundReceipt × DepositDb) := do
  let (digest, p, row) ← confirmable hash facts depositRefund "deposit is not refundable" proposal
    actor db
  let cleared ← clearRefund facts row db
  let moved ← cleared.casDepositStatus row.id .complianceHold .refundApproved
  let payment := refundPayment row facts.freshPayment
  let outbound ← (moved.outbound.insertPayment payment).mapError .store
  let confirmed ← confirmDepositProposal p digest { moved with outbound := outbound }
  pure ({ depositId := row.id, paymentId := payment.id, dest := payment.dest, replayed := false },
    confirmed)

end Opinions.Deposit
