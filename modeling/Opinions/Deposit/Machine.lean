import Opinions.Deposit.Effect
import Opinions.Lib.Run

/-! The deposit machine: every transaction of the deposit use cases as one step on the
tables, in any order. Between them the rest of the system books transactions beside
suspense and sends withdrawals through the same outbound tables. -/

namespace Opinions.Deposit

open Lib.Result Lib.Rows Lib.Run Domain.Ledger Model Store Trade Money

inductive Command
  | observe (o : ObservedDeposit) (railFingerprint : String) (freshId : DepositId)
  | admitObserved (facts : AdmitFacts) (sig : String) (actor : AdminContext) (reevaluateHold : Bool)
  | propose (now : Instant) (seen : DepositMachineStatus) (deposit : DepositId) (refund : Bool)
      (reason : String) (actor : AdminContext) (freshId : Uuid)
  | confirmAdmission (facts : ConfirmFacts) (proposal : Uuid) (actor : AdminContext)
  | confirmRefund (facts : ConfirmFacts) (proposal : Uuid) (actor : AdminContext)
  | beginRefundSend (facts : RefundFacts) (sig : String)
  | markRefundBroadcast (seen : DepositMachineStatus) (sig : String)
  | replaceExpiredRefund (facts : RefundFacts) (identity : RailIdentity)
      (observations : List QuorumObservation) (sig : String)
  | settleRefund (seen : DepositMachineStatus) (identity : RailIdentity) (receipt : ChainReceipt)
      (sig : String)
  | withdrawalPayment (payment : OutboundPaymentRow)
  | withdrawalAttempt (attempt : OutboundAttemptRow)
  | withdrawalLanding (attempt : OutboundAttemptRow)
  | post (kind : TxnKind) (key : String) (entries : List (Entry AccountKey))
      (not_suspense : ∀ e ∈ entries, ¬IsSuspense e.account)

def withdrawalOwned (a : OutboundAttemptRow) (o : Outbound) : Except AppError Unit := do
  let payment ← okOr (find OutboundPaymentRow.id a.paymentId o.payments)
    (.store (.notFound "outbound payment"))
  refuse (payment.subject ≠ .withdrawal) .illegalTransition

namespace DepositDb

/-- The state a command leaves; what it answers is dropped. -/
def step (hash : String → String) (db : DepositDb) : Command → Except AppError DepositDb
  | .observe o fp freshId => (observeFinalizedOnRail o fp freshId db).map Prod.snd
  | .admitObserved facts sig actor reevaluateHold =>
    (admitObserved facts sig actor reevaluateHold db).map Prod.snd
  | .propose now seen deposit refund reason actor freshId =>
    (proposeDepositCommand hash now seen deposit refund reason actor freshId db).map Prod.snd
  | .confirmAdmission facts proposal actor =>
    (confirmManualDepositAdmission hash facts proposal actor db).map Prod.snd
  | .confirmRefund facts proposal actor =>
    (confirmDepositRefund hash facts proposal actor db).map Prod.snd
  | .beginRefundSend facts sig => (Deposit.beginRefundSend facts sig db).map Prod.snd
  | .markRefundBroadcast seen sig => (Deposit.markRefundBroadcast seen sig db).map Prod.snd
  | .replaceExpiredRefund facts identity observations sig =>
    (Deposit.replaceExpiredRefund facts identity observations sig db).map Prod.snd
  | .settleRefund seen identity receipt sig =>
    (Deposit.settleRefund seen identity receipt sig db).map Prod.snd
  | .withdrawalPayment payment => do
    refuse (payment.subject ≠ .withdrawal) .illegalTransition
    let outbound ← (db.outbound.insertPayment payment).mapError .store
    pure { db with outbound := outbound }
  | .withdrawalAttempt attempt => do
    withdrawalOwned attempt db.outbound
    insertRefundAttempt attempt db
  | .withdrawalLanding attempt => do
    withdrawalOwned attempt db.outbound
    saveRefundAttempt attempt db
  | .post kind key entries _ => do
    let ledger ← ((openAll db.ledger entries).ledgerApply kind key entries).mapError .store
    pure { db with ledger := ledger }

theorem step_effect {hash : String → String} {db db' : DepositDb} {c : Command}
    (hids : (db.deposits.map DepositMachineRow.id).Nodup) (h : db.step hash c = .ok db') :
    Effect db db' := by
  cases c with
  | observe =>
    obtain ⟨_, h⟩ := map_snd_eq_ok.1 h
    exact observeFinalizedOnRail_effect h
  | admitObserved =>
    obtain ⟨_, h⟩ := map_snd_eq_ok.1 h
    exact admitObserved_effect hids h
  | propose =>
    obtain ⟨_, h⟩ := map_snd_eq_ok.1 h
    exact proposeDepositCommand_effect h
  | confirmAdmission =>
    obtain ⟨_, h⟩ := map_snd_eq_ok.1 h
    exact confirmManualDepositAdmission_effect hids h
  | confirmRefund =>
    obtain ⟨_, h⟩ := map_snd_eq_ok.1 h
    exact confirmDepositRefund_effect hids h
  | beginRefundSend =>
    obtain ⟨_, h⟩ := map_snd_eq_ok.1 h
    exact beginRefundSend_effect hids h
  | markRefundBroadcast =>
    obtain ⟨_, h⟩ := map_snd_eq_ok.1 h
    exact markRefundBroadcast_effect h
  | replaceExpiredRefund =>
    obtain ⟨_, h⟩ := map_snd_eq_ok.1 h
    exact replaceExpiredRefund_effect h
  | settleRefund =>
    obtain ⟨_, h⟩ := map_snd_eq_ok.1 h
    exact settleRefund_effect hids h
  | withdrawalPayment payment =>
    simp only [step, ok_iff] at h
    obtain ⟨_, -, outbound, hpay, rfl⟩ := h
    exact .quiet (Extends.refl _) rfl rfl (.single (.payment payment hpay))
  | withdrawalAttempt =>
    simp only [step, bind_eq_ok] at h
    obtain ⟨_, -, hinsert⟩ := h
    exact (insertRefundAttempt_spec hinsert).effect
  | withdrawalLanding =>
    simp only [step, bind_eq_ok] at h
    obtain ⟨_, -, hsave⟩ := h
    exact (saveRefundAttempt_spec hsave).effect
  | post kind key entries hbeside =>
    simp only [step, ok_iff] at h
    obtain ⟨ledger, happly, rfl⟩ := h
    exact .quiet ((Extends.openAll _ _).trans (Extends.applied happly hbeside)) rfl rfl .refl

end DepositDb

end Opinions.Deposit
