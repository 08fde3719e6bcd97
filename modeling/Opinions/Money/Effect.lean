import Opinions.Money.Tables

/-! What one committed transaction can do to the withdrawals, their outbound tables
and the withheld account. Each constructor of `Effect` is one edge of the published
state table with the ledger and attempt writes that must come with it; the commands
are shown to have no other effect, and every invariant is proved of the effects. -/

namespace Opinions.Money

open Lib.Result Lib.Rows Model Store Trade

def IsWithheld (k : AccountKey) : Prop := k = cash .withheld

theorem not_isWithheld_ingress (user : UserId) : ∀ k ∈ ingressAccounts user, ¬IsWithheld k := by
  simp [ingressAccounts, IsWithheld, cash, credit]

/-- One row was found and its mutable columns were replaced by those of `next`. -/
structure RowMoved (db : MoneyDb) (row next : WithdrawalRow) (db' : MoneyDb) : Prop where
  found : db.withdrawal row.id = some row
  withdrawals : db'.withdrawals =
    update WithdrawalRow.id row.id (MoneyDb.written next) db.withdrawals

def SameTxns (row next : WithdrawalRow) : Prop :=
  next.releaseTx = row.releaseTx ∧ next.settleTx = row.settleTx

/-- The hold's money went back to the user under `key`. -/
structure Released (l : Ledger) (row next : WithdrawalRow) (l' : Ledger) : Prop where
  key : ∃ key, next.releaseTx = some key ∧ l.TwoLegged .reversal key
    ⟨cash .withheld, -row.amountMicro⟩ ⟨cash (.user row.user), row.amountMicro⟩ l'
  settleTx : next.settleTx = row.settleTx

inductive Review : Combo → Combo → Prop
  | approve : Review .w1 .w2
  | hold : Review .w1 .w4
  | clear : Review .w4 .w2
  | propose : Review .w4 .w5
  | confirm : Review .w5 .w2
  | expire : Review .w5 .w4

variable {start stop : Combo} {db db' : MoneyDb}

theorem Review.active (h : Review start stop) :
    start.hasActiveHold = true ∧ stop.isLegal = true ∧ stop.hasActiveHold = true := by
  cases h <;> exact ⟨rfl, rfl, rfl⟩

theorem Review.send (h : Review start stop) : stop.send = start.send := by
  cases h <;> rfl

/-- What becomes of a row and of its attempt when the chain is looked at. -/
inductive Landing : Combo → LandingState → Combo → Prop
  | broadcast : Landing .w3 .broadcast .w6
  | rebroadcast : Landing .w8 .broadcast .w6
  | lost : Landing .w3 .unknown .w7
  | lostAgain : Landing .w8 .unknown .w7
  | missing : Landing .w6 .unknown .w7
  | broadcastLanded : Landing .w6 .finalized .w9
  | unknownLanded : Landing .w7 .finalized .w9
  | preparedLanded : Landing .w8 .finalized .w9

theorem Landing.active {state : LandingState} (h : Landing start state stop) :
    start.hasActiveHold = true ∧ stop.isLegal = true ∧ stop.hasActiveHold = true := by
  cases h <;> exact ⟨rfl, rfl, rfl⟩

/-- An attempt of the row's payment was saved with the state of `a`. -/
structure AttemptSaved (o : Outbound) (row : WithdrawalRow) (a : OutboundAttemptRow)
    (o' : Outbound) : Prop where
  payment : ∃ p, o.paymentBySubject .withdrawal row.id.uuid = some p ∧ p.id = a.paymentId
  saved : o.saveAttempt a = .ok o'

/-- The row's live attempt before the step. -/
def LiveAt (o : Outbound) (row : WithdrawalRow) (a : OutboundAttemptRow) : Prop :=
  ∃ p, o.paymentBySubject .withdrawal row.id.uuid = some p ∧ o.liveAttempt p.id = .ok (some a)

/-- The row's first attempt was inserted, with its payment if that was missing. -/
structure FirstAttempt (o : Outbound) (row : WithdrawalRow) (a : OutboundAttemptRow)
    (o' : Outbound) : Prop where
  payment : ∃ mid p, mid.insertAttempt a = .ok o' ∧ a.paymentId = p.id ∧
    mid.attemptsFor p.id = [] ∧ Outbound.subjectKey p = (.withdrawal, row.id.uuid) ∧
    (mid = o ∧ p ∈ o.payments ∨ o.insertPayment p = .ok mid)

/-- A write to the outbound tables on behalf of a deposit refund. -/
inductive RefundWrite (o o' : Outbound) : Prop
  | payment (p : OutboundPaymentRow) (subject : p.subject = .depositRefund)
      (write : o.insertPayment p = .ok o')
  | attempt (p : OutboundPaymentRow) (a : OutboundAttemptRow) (mem : p ∈ o.payments)
      (subject : p.subject = .depositRefund) (owner : a.paymentId = p.id)
      (write : o.insertAttempt a = .ok o')
  | landing (p : OutboundPaymentRow) (a : OutboundAttemptRow) (mem : p ∈ o.payments)
      (subject : p.subject = .depositRefund) (owner : a.paymentId = p.id)
      (write : o.saveAttempt a = .ok o')

inductive Effect (db db' : MoneyDb) : Prop
  /-- Nothing of a withdrawal changed. -/
  | quiet (ledger : Frame IsWithheld db.ledger db'.ledger)
      (withdrawals : db'.withdrawals = db.withdrawals) (outbound : db'.outbound = db.outbound)
  /-- A request took its hold. -/
  | requested (row : WithdrawalRow) (mid : Ledger) (ingress : Frame IsWithheld db.ledger mid)
      (hold : mid.TwoLegged .withdrawal row.holdTx ⟨cash (.user row.user), -row.amountMicro⟩
        ⟨cash .withheld, row.amountMicro⟩ db'.ledger)
      (combo : row.combo = .w1) (txns : row.releaseTx = none ∧ row.settleTx = none)
      (fresh : row.id ∉ db.withdrawals.map WithdrawalRow.id)
      (withdrawals : db'.withdrawals = db.withdrawals ++ [row])
      (outbound : db'.outbound = db.outbound)
  | reviewed (row next : WithdrawalRow) (moved : RowMoved db row next db')
      (edge : Review row.combo next.combo) (txns : SameTxns row next)
      (ledger : db'.ledger = db.ledger) (outbound : db'.outbound = db.outbound)
  | denied (row next : WithdrawalRow) (moved : RowMoved db row next db')
      (target : row.combo.denyTarget = some next.combo)
      (release : Released db.ledger row next db'.ledger) (outbound : db'.outbound = db.outbound)
  | claimed (row next : WithdrawalRow) (a : OutboundAttemptRow) (moved : RowMoved db row next db')
      (start : row.combo = .w2) (stop : next.combo = .w3) (txns : SameTxns row next)
      (first : FirstAttempt db.outbound row a db'.outbound) (ledger : db'.ledger = db.ledger)
  | landed (row next : WithdrawalRow) (a : OutboundAttemptRow) (moved : RowMoved db row next db')
      (edge : Landing row.combo a.landingState next.combo) (txns : SameTxns row next)
      (attempt : AttemptSaved db.outbound row a db'.outbound) (ledger : db'.ledger = db.ledger)
  /-- New evidence about an attempt that stays unknown. -/
  | noted (row : WithdrawalRow) (a : OutboundAttemptRow)
      (found : db.withdrawal row.id = some row) (combo : row.combo = .w7)
      (state : a.landingState = .unknown)
      (attempt : AttemptSaved db.outbound row a db'.outbound) (ledger : db'.ledger = db.ledger)
      (withdrawals : db'.withdrawals = db.withdrawals)
  | replaced (row next : WithdrawalRow) (old a : OutboundAttemptRow) (mid : Outbound)
      (moved : RowMoved db row next db') (start : row.combo = .w7) (stop : next.combo = .w8)
      (txns : SameTxns row next) (live : LiveAt db.outbound row old)
      (failed : AttemptSaved db.outbound row { old with landingState := .definitiveFailed } mid)
      (owner : a.paymentId = old.paymentId) (inserted : mid.insertAttempt a = .ok db'.outbound)
      (ledger : db'.ledger = db.ledger)
  | failed (row next : WithdrawalRow) (old : OutboundAttemptRow) (moved : RowMoved db row next db')
      (start : row.combo = .w7 ∨ row.combo = .w8) (stop : next.combo = .w15)
      (live : LiveAt db.outbound row old)
      (attempt : AttemptSaved db.outbound row { old with landingState := .definitiveFailed }
        db'.outbound)
      (release : Released db.ledger row next db'.ledger)
  | settled (row next : WithdrawalRow) (key : String) (moved : RowMoved db row next db')
      (start : row.combo = .w9) (stop : next.combo = .w10)
      (txns : next.releaseTx = row.releaseTx ∧ next.settleTx = some key)
      (settle : db.ledger.TwoLegged .withdrawal key ⟨cash .withheld, -row.amountMicro⟩
        ⟨cash .external, row.amountMicro⟩ db'.ledger)
      (outbound : db'.outbound = db.outbound)
  | refund (write : RefundWrite db.outbound db'.outbound)
      (ledger : db'.ledger = db.ledger) (withdrawals : db'.withdrawals = db.withdrawals)

/-- An effect without a send. -/
abbrev LocalEffect (db db' : MoneyDb) : Prop := Effect db db' ∧ db'.outbound = db.outbound

/-- Only proposals, intents, idempotency keys and events changed. -/
structure Aside (db db' : MoneyDb) : Prop where
  ledger : db'.ledger = db.ledger
  withdrawals : db'.withdrawals = db.withdrawals
  outbound : db'.outbound = db.outbound

theorem Aside.refl (db : MoneyDb) : Aside db db := ⟨rfl, rfl, rfl⟩

theorem Aside.trans {a b c : MoneyDb} (h₁ : Aside a b) (h₂ : Aside b c) : Aside a c :=
  ⟨h₂.ledger.trans h₁.ledger, h₂.withdrawals.trans h₁.withdrawals, h₂.outbound.trans h₁.outbound⟩

variable {mid : MoneyDb} {next row : WithdrawalRow} {p : MoneyProposal}

theorem Aside.found (h : Aside db mid) {id : WithdrawalId} :
    mid.withdrawal id = db.withdrawal id := by
  rw [MoneyDb.withdrawal, h.withdrawals, MoneyDb.withdrawal]

/-- A row moved after writes beside the withdrawals was moved. -/
theorem Aside.moved (h : Aside db mid) (hm : RowMoved mid row next db') :
    RowMoved db row next db' :=
  ⟨h.found ▸ hm.found, h.withdrawals ▸ hm.withdrawals⟩

theorem Aside.insertProposal (h : db.insertProposal p = .ok db') : Aside db db' := by
  simp only [MoneyDb.insertProposal, ok_iff] at h
  obtain ⟨_, -, _, -, _, -, _, -, rfl⟩ := h
  exact ⟨rfl, rfl, rfl⟩

theorem Aside.saveProposal (h : db.saveProposal p = .ok db') : Aside db db' := by
  simp only [MoneyDb.saveProposal, ok_iff] at h
  obtain ⟨_, -, _, -, _, -, rfl⟩ := h
  exact ⟨rfl, rfl, rfl⟩

theorem casWithdrawal_spec {expected : Combo} (hfound : db.withdrawal row.id = some row)
    (h : db.casWithdrawal row.id expected next = .ok db') :
    row.combo = expected ∧ db' = db.writeRow row.id next := by
  simp only [MoneyDb.casWithdrawal, hfound, Option.map_some, not_not, Option.some.injEq,
    ok_iff] at h
  obtain ⟨_, hcombo, rfl⟩ := h
  exact ⟨hcombo, rfl⟩

theorem liveAttempt_mem {o : Outbound} {payment : Uuid} {a : OutboundAttemptRow}
    (h : o.liveAttempt payment = .ok (some a)) :
    a ∈ o.attemptRows payment ∧ a.landingState.isLive = true := by
  simp only [Outbound.liveAttempt, ok_iff] at h
  obtain ⟨_, -, h⟩ := h
  have hmem : a ∈ (o.attemptsFor payment).filter fun a => a.landingState.isLive := by
    split at h
    · cases h
    · rename_i b hb
      cases h
      rw [hb]
      exact List.mem_singleton_self _
    · cases h
  obtain ⟨hmem, hlive⟩ := List.mem_filter.1 hmem
  exact ⟨(List.mem_insertionSort _).1 hmem, hlive⟩

end Opinions.Money
