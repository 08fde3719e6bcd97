import Opinions.Lib.Run
import Opinions.Money.Reconcile
import Opinions.Money.Request

/-! The withdrawal machine: every command of the withdrawal use cases as one step on
the tables. A transaction holds its key, user and row locks to its end, so a history
is a list of commands. Between them the rest of the system books transactions that
leave the withheld account alone and sends deposit refunds through the same outbound
tables. -/

namespace Opinions.Money

open Lib.Result Lib.Rows Lib.Run Domain.Ledger Model Store Trade

inductive Command
  | request (facts : RequestFacts) (cmd : RequestWithdrawCmd)
  | decide (facts : MoneyFacts) (actor : AdminContext) (id : WithdrawalId) (user : UserId)
      (cmd : DecideCmd)
  | send (facts : SendFacts) (id : WithdrawalId) (user : UserId)
  /-- The transaction after a broadcast, of a replacement (`W8`) or of a first send. -/
  | broadcast (facts : SendFacts) (id : WithdrawalId) (user : UserId) (replacement : Bool)
  | replaceExpired (facts : SendFacts) (observations : List QuorumObservation)
      (id : WithdrawalId) (user : UserId)
  | markUnknown (facts : MoneyFacts) (id : WithdrawalId) (user : UserId)
  | recoverW3 (facts : SendFacts) (id : WithdrawalId) (user : UserId)
  | observeFinalized (facts : MoneyFacts) (identity : RailIdentity) (receipt : ChainReceipt)
      (id : WithdrawalId) (user : UserId)
  | proveNonLanding (facts : MoneyFacts) (identity : RailIdentity)
      (observations : List QuorumObservation) (id : WithdrawalId) (user : UserId)
  | settle (facts : MoneyFacts) (identity : RailIdentity) (receipt : ChainReceipt)
      (id : WithdrawalId) (user : UserId)
  | refundPayment (payment : OutboundPaymentRow)
  | refundAttempt (attempt : OutboundAttemptRow)
  | refundLanding (attempt : OutboundAttemptRow)
  | post (kind : TxnKind) (key : String) (entries : List (Entry AccountKey))
      (not_withheld : ∀ e ∈ entries, ¬IsWithheld e.account)

/-- The attempt belongs to the payment of a deposit refund. -/
def refundOwned (a : OutboundAttemptRow) (o : Outbound) : Except AppError Unit := do
  let payment ← okOr (find OutboundPaymentRow.id a.paymentId o.payments)
    (.store (.notFound "outbound payment"))
  refuse (payment.subject ≠ .depositRefund) .illegalTransition

namespace MoneyDb

def empty : MoneyDb :=
  { ledger := Ledger.empty, withdrawals := [], outbound := ⟨[], []⟩, proposals := []
    intents := [], idempotency := [], events := [] }

def step (d : Digests) (db : MoneyDb) : Command → Except AppError MoneyDb
  | .request facts cmd => (requestWithdraw d facts cmd db).map Prod.snd
  | .decide facts actor id user cmd => (decideWithdraw d facts actor id user cmd db).map Prod.snd
  | .send facts id user => (sendWithdraw facts id user db).map Prod.snd
  | .broadcast facts id user replacement =>
    (casBroadcast facts id user (if replacement then .w8 else .w3) db).map Prod.snd
  | .replaceExpired facts observations id user =>
    (replaceExpired facts observations id user db).map Prod.snd
  | .markUnknown facts id user => (markUnknown facts id user db).map Prod.snd
  | .recoverW3 facts id user => (recoverW3 facts id user db).map Prod.snd
  | .observeFinalized facts identity receipt id user =>
    (observeFinalized facts identity receipt id user db).map Prod.snd
  | .proveNonLanding facts identity observations id user =>
    (proveNonLanding facts identity observations id user db).map Prod.snd
  | .settle facts identity receipt id user =>
    (settleWithdraw facts identity receipt id user db).map Prod.snd
  | .refundPayment payment => do
    refuse (payment.subject ≠ .depositRefund) .illegalTransition
    let outbound ← (db.outbound.insertPayment payment).mapError .store
    pure { db with outbound := outbound }
  | .refundAttempt attempt => do
    refundOwned attempt db.outbound
    insertAttempt attempt db
  | .refundLanding attempt => do
    refundOwned attempt db.outbound
    saveAttempt attempt db
  | .post kind key entries _ => do
    let ledger ← ((openAll db.ledger entries).ledgerApply kind key entries).mapError .store
    pure { db with ledger := ledger }

end MoneyDb

theorem refundOwned_spec {a : OutboundAttemptRow} {o : Outbound} (h : refundOwned a o = .ok ()) :
    ∃ p ∈ o.payments, p.subject = .depositRefund ∧ a.paymentId = p.id := by
  simp only [refundOwned, not_not, ok_iff] at h
  obtain ⟨p, hp, hsubject⟩ := h
  exact ⟨p, mem_of_find hp, hsubject, (key_of_find hp).symm⟩

/-- What a proof says: the withdrawal it is for, the observations and the endpoints. -/
def proofOf : Command → Option (WithdrawalId × List QuorumObservation × List String)
  | .replaceExpired facts observations id _ => some (id, observations, facts.identity.rpcEndpoints)
  | .proveNonLanding _ identity observations id _ =>
    some (id, observations, identity.rpcEndpoints)
  | _ => none

/-- An accepted command, by what it may write. -/
inductive Stepped (d : Digests) (db : MoneyDb) : Command → MoneyDb → Prop
  | request {facts : RequestFacts} {cmd : RequestWithdrawCmd} {r : WithdrawalReceipt}
      {db' : MoneyDb} (done : requestWithdraw d facts cmd db = .ok (r, db')) :
      Stepped d db (.request facts cmd) db'
  | decide {facts : MoneyFacts} {actor : AdminContext} {id : WithdrawalId} {user : UserId}
      {cmd : DecideCmd} {r : WithdrawalRow} {db' : MoneyDb}
      (done : decideWithdraw d facts actor id user cmd db = .ok (r, db')) :
      Stepped d db (.decide facts actor id user cmd) db'
  | send {c : Command} {db' : MoneyDb} (done : SendStep (proofOf c) db db') : Stepped d db c db'
  | refund {c : Command} {o : Outbound} (done : RefundWrite db.outbound o) :
      Stepped d db c { db with outbound := o }
  | post {c : Command} {l : Ledger} (done : Frame IsWithheld db.ledger l) :
      Stepped d db c { db with ledger := l }

variable {c : Command} {d : Digests} {db db' : MoneyDb}

theorem MoneyDb.step_stepped (h : db.step d c = .ok db') : Stepped d db c db' := by
  cases c with
  | request => exact .request (map_snd_eq_ok.1 h).choose_spec
  | decide => exact .decide (map_snd_eq_ok.1 h).choose_spec
  | send => exact .send (sendWithdraw_step (map_snd_eq_ok.1 h).choose_spec)
  | broadcast facts id user replacement =>
    refine .send (casBroadcast_step ?_ (map_snd_eq_ok.1 h).choose_spec)
    cases replacement
    · exact Or.inl rfl
    · exact Or.inr rfl
  | replaceExpired => exact .send (replaceExpired_step (map_snd_eq_ok.1 h).choose_spec)
  | markUnknown => exact .send (markUnknown_step (map_snd_eq_ok.1 h).choose_spec)
  | recoverW3 => exact .send (recoverW3_step (map_snd_eq_ok.1 h).choose_spec)
  | observeFinalized => exact .send (observeFinalized_step (map_snd_eq_ok.1 h).choose_spec)
  | proveNonLanding => exact .send (proveNonLanding_step (map_snd_eq_ok.1 h).choose_spec)
  | settle => exact .send (settleWithdraw_step (map_snd_eq_ok.1 h).choose_spec)
  | refundPayment payment =>
    simp only [MoneyDb.step, not_not, ok_iff] at h
    obtain ⟨_, hsubject, o, ho, rfl⟩ := h
    exact .refund (.payment payment hsubject ho)
  | refundAttempt attempt =>
    simp only [MoneyDb.step, bind_eq_ok] at h
    obtain ⟨_, howned, hins⟩ := h
    obtain ⟨p, hp, hsubject, hid⟩ := refundOwned_spec howned
    obtain ⟨o, ho, rfl⟩ := insertAttempt_spec hins
    exact .refund (.attempt p attempt hp hsubject hid ho)
  | refundLanding attempt =>
    simp only [MoneyDb.step, bind_eq_ok] at h
    obtain ⟨_, howned, hsave⟩ := h
    obtain ⟨p, hp, hsubject, hid⟩ := refundOwned_spec howned
    obtain ⟨o, ho, rfl⟩ := saveAttempt_spec hsave
    exact .refund (.landing p attempt hp hsubject hid ho)
  | post kind key entries hne =>
    simp only [MoneyDb.step, ok_iff] at h
    obtain ⟨ledger, hl, rfl⟩ := h
    exact .post ((Frame.openAll _ _).trans (Frame.applied hl hne))

theorem MoneyDb.step_effect (h : db.step d c = .ok db') : Effect db db' := by
  cases MoneyDb.step_stepped h with
  | request done => exact (requestWithdraw_effect done).1
  | decide done => exact (decideWithdraw_effect done).1
  | send done => exact done.effect
  | refund done => exact .refund done rfl rfl
  | post done => exact .quiet done rfl rfl

end Opinions.Money
