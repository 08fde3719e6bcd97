import Opinions.Money.Send

/-! The tables of the deposit machine (`adapters/src/pg/credit_tx.rs`): the observed
deposits, the outbound tables their refunds use, the proposals, and the ledger. A
status is only written by a compare-and-swap along an edge of the published table.
`changes` keeps every such write in order; the code stores only the last. -/

namespace Opinions.Deposit

open Lib.Result Lib.Rows Model Store Trade Money

structure DepositId where
  uuid : Uuid
  deriving DecidableEq

inductive DepositMachineStatus
  | observedFinalized
  | admissionPending
  | admitted
  | admittedLegacy
  | complianceHold
  | refundApproved
  | refundSending
  | refunded
  deriving DecidableEq

def legalDepositTransition (start stop : DepositMachineStatus) : Bool :=
  match start, stop with
  | .observedFinalized, .admissionPending | .admissionPending, .admitted
  | .admissionPending, .complianceHold | .complianceHold, .admissionPending
  | .complianceHold, .admitted | .complianceHold, .refundApproved
  | .refundApproved, .refundSending | .refundSending, .refunded => true
  | _, _ => false

def isSuspenseLiability (status : DepositMachineStatus) : Bool :=
  match status with
  | .admitted | .admittedLegacy | .refunded => false
  | _ => true

structure ObservedDeposit where
  user : Option UserId
  amount : Int
  chainSig : String
  sourceAddress : String
  destAddress : String
  mint : String
  slot : Int

/-- A stored deposit. Ledger transactions are named by their keys. -/
structure DepositMachineRow where
  id : DepositId
  user : Option UserId
  amount : Int
  chainSig : String
  sourceAddress : String
  destAddress : String
  mint : String
  railFingerprint : String
  slot : Int
  status : DepositMachineStatus
  suspenseTx : Option String
  admitTx : Option String
  refundTx : Option String

structure StatusChange where
  deposit : DepositId
  start : DepositMachineStatus
  stop : DepositMachineStatus

structure DepositDb where
  ledger : Ledger
  deposits : List DepositMachineRow
  outbound : Outbound
  proposals : List MoneyProposal
  changes : List StatusChange

namespace DepositDb

def empty : DepositDb :=
  { ledger := Ledger.empty, deposits := [], outbound := ⟨[], []⟩, proposals := [], changes := [] }

def depositMachineBySig (db : DepositDb) (sig : String) : Option DepositMachineRow :=
  find DepositMachineRow.chainSig sig db.deposits

def depositMachineById (db : DepositDb) (id : DepositId) : Option DepositMachineRow :=
  find DepositMachineRow.id id db.deposits

def observeDeposit (db : DepositDb) (obs : ObservedDeposit) (suspenseTx railFingerprint : String)
    (freshId : DepositId) : Except StoreError DepositDb := do
  refuse (freshId ∈ db.deposits.map DepositMachineRow.id) (.integrity "deposits_pkey")
  refuse (obs.chainSig ∈ db.deposits.map DepositMachineRow.chainSig)
    (.integrity "deposits_chain_sig_key")
  pure { db with deposits := db.deposits ++
    [{ id := freshId, user := obs.user, amount := obs.amount, chainSig := obs.chainSig
       sourceAddress := obs.sourceAddress, destAddress := obs.destAddress, mint := obs.mint
       railFingerprint := railFingerprint, slot := obs.slot, status := .observedFinalized
       suspenseTx := some suspenseTx, admitTx := none, refundTx := none }] }

def writeDeposit (db : DepositDb) (id : DepositId) (f : DepositMachineRow → DepositMachineRow) :
    DepositDb :=
  { db with deposits := update DepositMachineRow.id id f db.deposits }

/-- Every caller turns a lost compare-and-swap into a conflict. -/
def casDepositStatus (db : DepositDb) (id : DepositId) (start stop : DepositMachineStatus) :
    Except AppError DepositDb := do
  refuse (legalDepositTransition start stop = false)
    (.store (.invariant "illegal deposit transition"))
  refuse ((db.depositMachineById id).map DepositMachineRow.status ≠ some start)
    (.store (.conflict "deposit status"))
  pure { db.writeDeposit id (fun r => { r with status := stop }) with
    changes := db.changes ++ [⟨id, start, stop⟩] }

/-- The row with the id has neither left suspense by admission nor by refund. -/
def unmarked (db : DepositDb) (id : DepositId) : Bool :=
  (db.depositMachineById id).any fun r => r.admitTx = none ∧ r.refundTx = none

def markAdmitted (db : DepositDb) (id : DepositId) (admitTx : String) :
    Except StoreError DepositDb := do
  refuse (db.unmarked id = false) (.conflict "deposit admission transaction")
  pure (db.writeDeposit id fun r => { r with admitTx := some admitTx })

def markRefunded (db : DepositDb) (id : DepositId) (refundTx : String) :
    Except StoreError DepositDb := do
  refuse (db.unmarked id = false) (.conflict "deposit refund transaction")
  pure (db.writeDeposit id fun r => { r with refundTx := some refundTx })

def refundPaymentForDeposit (db : DepositDb) (id : DepositId) : Option OutboundPaymentRow :=
  db.outbound.paymentBySubject .depositRefund id.uuid

def proposalByReplay (db : DepositDb) (replayKey : String) : Option MoneyProposal :=
  find MoneyProposal.replayKey replayKey db.proposals

def proposalById (db : DepositDb) (id : Uuid) : Except StoreError MoneyProposal :=
  okOr (find MoneyProposal.id id db.proposals) (.notFound "proposal")

def insertProposal (db : DepositDb) (p : MoneyProposal) : Except StoreError DepositDb := do
  refuse (p.id ∈ db.proposals.map MoneyProposal.id ∨
    p.replayKey ∈ db.proposals.map MoneyProposal.replayKey ∨
    db.proposals.any fun q => q.kind = p.kind ∧ q.subjectId = p.subjectId ∧ q.status = .pending)
    (.conflict "proposal replay")
  refuse (p.expiresAt ≤ p.confirmNotBefore) (.integrity "money_command_proposals_check")
  pure { db with proposals := db.proposals ++ [p] }

def confirmed (confirmer : String) (p : MoneyProposal) : MoneyProposal :=
  if p.status = .pending then { p with confirmerTokenId := some confirmer, status := .confirmed }
  else p

/-- A compare-and-swap on `pending`; what is stored afterwards is read back. -/
def confirmProposal (db : DepositDb) (id : Uuid) (confirmer : String) :
    Except StoreError (MoneyProposal × DepositDb) := do
  let next := { db with
    proposals := update MoneyProposal.id id (confirmed confirmer) db.proposals }
  let p ← next.proposalById id
  pure (p, next)

end DepositDb

end Opinions.Deposit
