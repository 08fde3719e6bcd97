import Opinions.Credit.Lots
import Opinions.Deposit.Tables

/-! The invariant sweep (`application/src/integrity/invariant_sweep.rs`): fourteen identities
over one snapshot. The last seven are pure functions of a facts record, which the sweep
fills from the account balances alone. -/

namespace Opinions.Integrity

open Lib.Checked Lib.Result Domain.Ledger Model Store Trade Money Deposit Credit

structure IdentityResult where
  identity : String
  pass : Bool
  detail : Option String

structure InvariantReport where
  asOf : Instant
  pass : Bool
  identities : List IdentityResult

def failureDetail (pass : Bool) (detail : String) : Option String := if pass then none else some detail

/-- A verdict that explains itself only when it fails. -/
def result (identity : String) (pass : Bool) (detail : String) : IdentityResult :=
  { identity := identity, pass := pass, detail := failureDetail pass detail }

def noneBroken (identity : String) (broken : List String) : IdentityResult :=
  result identity (broken = []) ("; ".intercalate broken)

structure AccountBalanceRow where
  ownerType : OwnerType
  currency : Currency
  balanceMicro : Int

structure WithdrawalAttribution where
  id : Uuid
  amountMicro : Int
  status : WithdrawalStatus
  sendState : WithdrawalSendState
  holdAmountMicro : Int
  releaseAmountMicro : Option Int
  settleAmountMicro : Option Int
  /-- Ledger transactions are named by their key. -/
  holdTx : String
  releaseTx : Option String
  settleTx : Option String

def WithdrawalAttribution.isTerminal (row : WithdrawalAttribution) : Bool :=
  match row.status with
  | .settled | .denied | .failed => true
  | _ => false

def WithdrawalAttribution.hasActiveHold (row : WithdrawalAttribution) : Bool :=
  row.sendState ≠ .definitiveFailed ∧ row.settleTx = none ∧ row.releaseTx = none ∧
    row.isTerminal = false

def WithdrawalAttribution.isAccepted (row : WithdrawalAttribution) : Bool := row.status ≠ .denied

structure DepositLiability where
  amountMicro : Int
  status : DepositMachineStatus

def DepositLiability.isOpenObservation (row : DepositLiability) : Bool :=
  match row.status with
  | .observedFinalized | .admissionPending | .complianceHold | .refundApproved
  | .refundSending => true
  | _ => false

structure BonusLotCoverage where
  remainingPromiseMicro : Int
  grantClass : String
  converted : Bool

structure OutboundAttemptFact where
  paymentId : Uuid
  subjectId : Uuid
  landingState : String

structure MoneyIdentityFacts where
  withheldBalanceMicro : Int
  suspenseBalanceMicro : Int
  bonusReserveBalanceMicro : Int
  withdrawals : List WithdrawalAttribution
  deposits : List DepositLiability
  lots : List BonusLotCoverage
  attempts : List OutboundAttemptFact

def sumOwner (balances : List AccountBalanceRow) (owner : OwnerType) : Int :=
  ((balances.filter fun row => row.ownerType = owner ∧ row.currency = .usdc).map
    AccountBalanceRow.balanceMicro).sum

/-- Only the three balances are filled; the row lists keep their default. -/
def fromBalances (balances : List AccountBalanceRow) : MoneyIdentityFacts :=
  { withheldBalanceMicro := sumOwner balances .withheld
    suspenseBalanceMicro := sumOwner balances .depositSuspense
    bonusReserveBalanceMicro := sumOwner balances .bonusReserve
    withdrawals := [], deposits := [], lots := [], attempts := [] }

def openLiabilities (facts : MoneyIdentityFacts) : Int :=
  ((facts.deposits.filter DepositLiability.isOpenObservation).map DepositLiability.amountMicro).sum

def depositSuspenseSigma (facts : MoneyIdentityFacts) : IdentityResult :=
  result "deposit_suspense_sigma" (facts.suspenseBalanceMicro = openLiabilities facts)
    ("balance " ++ decimal facts.suspenseBalanceMicro ++ " != open observation Σ " ++
      decimal (openLiabilities facts))

def promisedMicro (facts : MoneyIdentityFacts) : Int :=
  ((facts.lots.filter fun lot => !lot.converted ∧ lot.grantClass = "real_money").map
    BonusLotCoverage.remainingPromiseMicro).sum

def bonusReserveCoverage (facts : MoneyIdentityFacts) : IdentityResult :=
  result "bonus_reserve_coverage" (promisedMicro facts ≤ facts.bonusReserveBalanceMicro)
    ("reserve " ++ decimal facts.bonusReserveBalanceMicro ++ " < remaining real_money promise " ++
      decimal (promisedMicro facts))

def activeMicro (facts : MoneyIdentityFacts) : Int :=
  ((facts.withdrawals.filter WithdrawalAttribution.hasActiveHold).map
    WithdrawalAttribution.amountMicro).sum

def withdrawalHoldMatchesActive (facts : MoneyIdentityFacts) : IdentityResult :=
  result "withdrawal_hold_matches_active" (facts.withheldBalanceMicro = activeMicro facts)
    ("Withheld " ++ decimal facts.withheldBalanceMicro ++ " != active holds " ++
      decimal (activeMicro facts))

def withdrawalHoldExact (facts : MoneyIdentityFacts) : IdentityResult :=
  noneBroken "withdrawal_hold_exact"
    ((facts.withdrawals.filter fun row => row.isAccepted ∧ row.holdAmountMicro ≠ row.amountMicro).map
      fun row => uuidText row.id ++ " hold " ++ decimal row.holdAmountMicro ++ " != " ++
        decimal row.amountMicro)

def debugTx : Option String → String
  | none => "None"
  | some tx => "Some(" ++ tx ++ ")"

/-- Not exactly one ending, or one for another amount. -/
def WithdrawalAttribution.endsBadly (row : WithdrawalAttribution) : Bool :=
  row.releaseAmountMicro.isSome = row.settleAmountMicro.isSome ∨ row.releaseAmountMicro = some 0 ∨
    row.settleAmountMicro = some 0 ∨
    (row.releaseAmountMicro.isSome ∧ row.releaseAmountMicro ≠ some row.amountMicro) ∨
    (row.settleAmountMicro.isSome ∧ row.settleAmountMicro ≠ some row.amountMicro)

def withdrawalTerminalXor (facts : MoneyIdentityFacts) : IdentityResult :=
  noneBroken "withdrawal_terminal_xor"
    (((facts.withdrawals.filter WithdrawalAttribution.isTerminal).filter
      WithdrawalAttribution.endsBadly).map fun row =>
        uuidText row.id ++ " release=" ++ debugTx row.releaseTx ++ " settle=" ++
          debugTx row.settleTx)

def finalizedCount (attempts : List OutboundAttemptFact) : Nat :=
  (attempts.filter fun a => a.landingState = "finalized").length

/-- The payments that have attempts, in the order of the map. -/
def attemptedPayments (attempts : List OutboundAttemptFact) : List Uuid :=
  (attempts.map OutboundAttemptFact.paymentId).dedup.insertionSort fun a b => a.toNat ≤ b.toNat

def attemptsOfPayment (attempts : List OutboundAttemptFact) (payment : Uuid) :
    List OutboundAttemptFact :=
  attempts.filter fun a => a.paymentId = payment

def attemptsOfSubject (attempts : List OutboundAttemptFact) (subject : Uuid) :
    List OutboundAttemptFact :=
  attempts.filter fun a => a.subjectId = subject

def withdrawalAttemptLineage (facts : MoneyIdentityFacts) : IdentityResult :=
  let finalized := fun payment => finalizedCount (attemptsOfPayment facts.attempts payment)
  let settled := fun row : WithdrawalAttribution =>
    finalizedCount (attemptsOfSubject facts.attempts row.id)
  noneBroken "withdrawal_attempt_lineage"
    (((attemptedPayments facts.attempts).filter fun payment => 1 < finalized payment).map
      (fun payment => "payment " ++ uuidText payment ++ " has " ++ decimal (finalized payment) ++
        " finalized attempts") ++
    ((facts.withdrawals.filter fun row => row.status = .settled).filter fun row =>
      settled row ≠ 1 ∨ row.settleTx = none).map fun row =>
        "settled " ++ uuidText row.id ++ " finalized_attempts=" ++ decimal (settled row) ++
          " settle=" ++ debugTx row.settleTx)

/-- The endings a terminal row names, each with its kind. -/
def WithdrawalAttribution.endings (row : WithdrawalAttribution) : List (String × String) :=
  if row.isTerminal then
    (row.settleTx.toList.map fun tx => ("settle", tx)) ++
      row.releaseTx.toList.map fun tx => ("release", tx)
  else []

/-- Insert into the seen set; what was there already is a duplicate. -/
def noteEnding (acc : List (String × String) × List String) (ending : String × String) :
    List (String × String) × List String :=
  if ending ∈ acc.1 then (acc.1, acc.2 ++ ["duplicate " ++ ending.1 ++ " " ++ ending.2])
  else (acc.1 ++ [ending], acc.2)

def withdrawalNoDuplicateTerminal (facts : MoneyIdentityFacts) : IdentityResult :=
  noneBroken "withdrawal_no_duplicate_terminal"
    ((facts.withdrawals.flatMap WithdrawalAttribution.endings).foldl noteEnding ([], [])).2

def evaluateMoneyIdentities (facts : MoneyIdentityFacts) : List IdentityResult :=
  [depositSuspenseSigma facts, bonusReserveCoverage facts, withdrawalHoldMatchesActive facts,
    withdrawalHoldExact facts, withdrawalTerminalXor facts, withdrawalAttemptLineage facts,
    withdrawalNoDuplicateTerminal facts]

structure EscrowHistoryRow where
  market : MarketId
  residualMicro : Int
  collateralAtCloseMicro : Option Int

structure ReceivableReconRow where
  originReversalTxn : String
  openedMicro : Int
  houseShortfallMicro : Int
  collectedMicro : Int
  writtenOffMicro : Int

structure SweepReads where
  asOf : Instant
  unbalancedTxns : List String
  accountBalances : List AccountBalanceRow
  unpairedPaymentFacts : List Uuid
  escrowHistory : List EscrowHistoryRow
  duplicateJobEffects : List String
  receivableReconciliation : List ReceivableReconRow

def countDetail (n : Nat) (what : String) : String := decimal n ++ " " ++ what

def sumChecked (rows : List AccountBalanceRow) : Except AppError Int :=
  rows.foldlM (fun total row => okOr (checkedI128 (total + row.balanceMicro)) AppError.overflow) 0

def currencyText : Currency → String
  | .usdc => "Usdc"
  | .usdcCredit => "UsdcCredit"

/-- External mirrors internal in one currency; the complaint otherwise. -/
def mirrorFailure (balances : List AccountBalanceRow) (currency : Currency) :
    Except AppError (List String) := do
  let external ← sumChecked (balances.filter fun row =>
    row.currency = currency ∧ row.ownerType = .external)
  let internal ← sumChecked (balances.filter fun row =>
    row.currency = currency ∧ row.ownerType ≠ .external)
  pure (if checkedI128 (-external) ≠ some internal then
    [currencyText currency ++ ": external " ++ decimal external ++ " + internal " ++
      decimal internal ++ " is not zero"]
  else [])

def receivableRowBroken (row : ReceivableReconRow) : Bool :=
  row.openedMicro ≠ row.houseShortfallMicro ∨ row.openedMicro < row.collectedMicro + row.writtenOffMicro

def formatBrokenReceivables (recon : List ReceivableReconRow) : List String :=
  (recon.filter receivableRowBroken).map fun row =>
    "origin " ++ row.originReversalTxn ++ ": opened " ++ decimal row.openedMicro ++ " shortfall " ++
      decimal row.houseShortfallMicro ++ " collected " ++ decimal row.collectedMicro ++
      " written_off " ++ decimal row.writtenOffMicro

def escrowResiduals (rows : List EscrowHistoryRow) : List String :=
  (rows.filter fun row => row.collateralAtCloseMicro.isSome ∧ row.residualMicro ≠ 0).map fun row =>
    "market " ++ uuidText row.market.uuid ++ " residual " ++ decimal row.residualMicro

def sweep (reads : SweepReads) : Except AppError InvariantReport := do
  let balances := reads.accountBalances
  let negative := balances.filter fun row => row.ownerType ≠ .external ∧ row.balanceMicro < 0
  let cashMirror ← mirrorFailure balances .usdc
  let creditMirror ← mirrorFailure balances .usdcCredit
  let identities :=
    [result "per_txn_sum_zero" (reads.unbalancedTxns = [])
        (countDetail reads.unbalancedTxns.length "unbalanced transactions"),
      result "non_external_non_negative" (negative = [])
        (countDetail negative.length "negative internal accounts"),
      noneBroken "external_mirrors_internal" (cashMirror ++ creditMirror),
      result "payment_facts_paired" (reads.unpairedPaymentFacts = [])
        (countDetail reads.unpairedPaymentFacts.length "unpaired payment facts"),
      noneBroken "escrow_history_zero" (escrowResiduals reads.escrowHistory),
      noneBroken "job_idempotency" reads.duplicateJobEffects,
      noneBroken "receivables_reconcile" (formatBrokenReceivables reads.receivableReconciliation)] ++
    evaluateMoneyIdentities (fromBalances balances)
  pure { asOf := reads.asOf, pass := identities.all IdentityResult.pass, identities := identities }

/-- Identities 8 to 14 of a report depend on the balances alone. -/
theorem sweep_money {reads : SweepReads} {report : InvariantReport} (h : sweep reads = .ok report) :
    report.identities.drop 7 = evaluateMoneyIdentities (fromBalances reads.accountBalances) := by
  simp only [sweep, ok_iff] at h
  obtain ⟨_, -, _, -, rfl⟩ := h
  rfl

end Opinions.Integrity
