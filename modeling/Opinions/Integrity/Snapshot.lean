import Opinions.Credit.Reserve
import Opinions.Deposit.Suspense
import Opinions.Integrity.Sweep
import Opinions.Money.Endings

/-! What the money identities say of a store. A snapshot holds the rows of all tables over
one ledger; its facts record lists every withdrawal, deposit, lot and attempt. In a
snapshot the system can reach, every identity holds of those facts. -/

namespace Opinions.Integrity

open Lib.Run Domain.Ledger Store Trade Money Deposit Credit

structure Snapshot where
  ledger : Ledger
  withdrawals : List WithdrawalRow
  deposits : List DepositMachineRow
  lots : List CreditLotRow
  outbound : Outbound

def accountBalances (l : Ledger) : List AccountBalanceRow :=
  l.balances.rows.map fun r =>
    { ownerType := r.owner, currency := r.currency
      balanceMicro := (l.txns.map fun t => delta t.entries r.id).sum }

/-- What the transaction of a key put into the withheld account. -/
def withheldBy (l : Ledger) (key : String) : Int :=
  (l.txnByKey key).elim 0 fun t => delta t.entries (cash .withheld)

def attribution (l : Ledger) (r : WithdrawalRow) : WithdrawalAttribution :=
  { id := r.id.uuid, amountMicro := r.amountMicro, status := r.combo.status
    sendState := r.combo.send, holdAmountMicro := withheldBy l r.holdTx
    releaseAmountMicro := r.releaseTx.map fun key => -withheldBy l key
    settleAmountMicro := r.settleTx.map fun key => -withheldBy l key
    holdTx := r.holdTx, releaseTx := r.releaseTx, settleTx := r.settleTx }

def liability (r : DepositMachineRow) : DepositLiability :=
  { amountMicro := r.amount, status := r.status }

def grantClassText : GrantClass → String
  | .realMoney => "real_money"
  | .sweeps => "sweeps"

def coverage (lot : CreditLotRow) : BonusLotCoverage :=
  { remainingPromiseMicro := lot.amountMicro, grantClass := grantClassText lot.grantClass
    converted := lot.convertedAt.isSome }

def landingText : LandingState → String
  | .prepared => "prepared"
  | .broadcast => "broadcast"
  | .unknown => "unknown"
  | .finalized => "finalized"
  | .definitiveFailed => "definitive_failed"

def attemptFact (p : OutboundPaymentRow) (a : OutboundAttemptRow) : OutboundAttemptFact :=
  { paymentId := p.id, subjectId := p.subjectId, landingState := landingText a.landingState }

/-- The attempts of withdrawals, each with its payment. -/
def attemptFacts (o : Outbound) : List OutboundAttemptFact :=
  o.payments.flatMap fun p =>
    if p.subject = .withdrawal then (o.attemptRows p.id).map (attemptFact p) else []

namespace Snapshot

def facts (s : Snapshot) : MoneyIdentityFacts :=
  { fromBalances (accountBalances s.ledger) with
    withdrawals := s.withdrawals.map (attribution s.ledger), deposits := s.deposits.map liability
    lots := s.lots.map coverage, attempts := attemptFacts s.outbound }

/-- Identities 8 to 14 as the sweep reports them. -/
def report (s : Snapshot) : List IdentityResult :=
  evaluateMoneyIdentities (fromBalances (accountBalances s.ledger))

/-- Identities 8 to 14 of the rows. -/
def verdict (s : Snapshot) : List IdentityResult := evaluateMoneyIdentities s.facts

/-- The report passes exactly the identities that hold of the rows. -/
def Truthful (s : Snapshot) : Prop :=
  s.report.map IdentityResult.pass = s.verdict.map IdentityResult.pass

end Snapshot

structure SameBooks (l l' : Ledger) : Prop where
  txns : l'.txns = l.txns
  balanceOf : ∀ k, l'.balanceOf k = l.balanceOf k

/-- Every part of the snapshot is reached by the machine of that part, to which the other
parts are the rest of the system. -/
structure Reachable (s : Snapshot) : Prop where
  withdrawals : ∃ d cmds, let db := run (MoneyDb.step d) MoneyDb.empty cmds
    SameBooks db.ledger s.ledger ∧ s.withdrawals = db.withdrawals ∧ s.outbound = db.outbound
  deposits : ∃ hash cmds, let db := run (DepositDb.step hash) DepositDb.empty cmds
    SameBooks db.ledger s.ledger ∧ s.deposits = db.deposits ∧ s.outbound = db.outbound
  lots : ∃ cmds, let db := run CreditDb.step CreditDb.empty cmds
    SameBooks db.ledger s.ledger ∧ s.lots = db.lots

variable {l : Ledger}

theorem SameBooks.of_rows {l' : Ledger} (htxns : l'.txns = l.txns)
    (hrows : l'.balances.rows = l.balances.rows) : SameBooks l l' where
  txns := htxns
  balanceOf := fun k => by
    simp only [Ledger.balanceOf, Balances.balance, Balances.account, hrows]

theorem SameBooks.journal {l' : Ledger} (h : SameBooks l l') (hl : Journal l) : Journal l' where
  keys := by
    rw [h.txns]
    exact hl.keys
  balanceOf := fun k => by rw [h.balanceOf, hl.balanceOf, h.txns]

/-- Nothing known of the withdrawals looks at more than the books. -/
theorem SameBooks.sound {db : MoneyDb} (h : SameBooks db.ledger l) (hdb : Sound db) :
    Sound { db with ledger := l } where
  conserved := ⟨hdb.conserved.ids, hdb.conserved.legal,
    (h.balanceOf _).trans hdb.conserved.withheld,
    fun r hr => (hdb.conserved.accounted r hr).mono fun _ ht => h.txns ▸ ht⟩
  tracked := ⟨hdb.tracked.valid, hdb.tracked.owned, hdb.tracked.shape⟩
  endings := ⟨fun r hr => h.txns ▸ hdb.endings.held r hr, hdb.endings.releases, hdb.endings.settles⟩
  positive := hdb.positive

/-- What is used of a reachable snapshot. -/
structure Healthy (s : Snapshot) : Prop where
  journal : Journal s.ledger
  ids : (s.withdrawals.map WithdrawalRow.id).Nodup
  legal : ∀ r ∈ s.withdrawals, r.combo.isLegal = true
  withheld : s.ledger.balanceOf (cash .withheld) = (s.withdrawals.map heldMicro).sum
  accounted : ∀ r ∈ s.withdrawals, Accounted s.ledger r
  endings : Endings { MoneyDb.empty with ledger := s.ledger, withdrawals := s.withdrawals }
  valid : s.outbound.Valid
  orderly : ∀ p ∈ s.outbound.payments, p.subject = .withdrawal →
    Orderly (s.outbound.attemptRows p.id)
  shape : ∀ r ∈ s.withdrawals, Shape r.combo.send (s.outbound.sends r.id.uuid)
  requested : ∀ r ∈ s.withdrawals, 0 < r.amountMicro
  suspense : s.ledger.balanceOf suspense =
    (s.deposits.map fun r => if isSuspenseLiability r.status then r.amount else 0).sum
  observed : ∀ r ∈ s.deposits, 0 < r.amount
  covered : remainingRealMoneyPromise s.lots ≤ s.ledger.balanceOf reserve
  reserve : 0 ≤ s.ledger.balanceOf reserve

theorem Reachable.healthy {s : Snapshot} (h : Reachable s) : Healthy s := by
  obtain ⟨l, withdrawals, deposits, lots, outbound⟩ := s
  obtain ⟨d, moneyCmds, hmoney, rfl, rfl⟩ := h.withdrawals
  obtain ⟨hash, depositCmds, hdeposit, rfl, -⟩ := h.deposits
  obtain ⟨creditCmds, hcredit, rfl⟩ := h.lots
  have hm := hmoney.sound (sound_run d moneyCmds)
  have hd := Deposit.conserved_run hash depositCmds
  have hc := covered_run creditCmds
  refine ⟨hdeposit.journal hd.journal, hm.conserved.ids, hm.conserved.legal, ?_,
    hm.conserved.accounted, ⟨hm.endings.held, hm.endings.releases, hm.endings.settles⟩,
    hm.tracked.valid, fun p hp hsubject => ?_, hm.tracked.shape, hm.positive, ?_,
    positive_run hash depositCmds, ?_, ?_⟩
  · exact hm.conserved.withheld.trans (MoneyDb.activeHolds_eq _)
  · rw [← hm.tracked.valid.attemptsFor_eq]
    exact hm.tracked.orderly hp hsubject
  · rw [hdeposit.balanceOf, hd.balance, liabilities_eq]
  · rw [hcredit.balanceOf]
    exact hc.promise
  · rw [hcredit.balanceOf]
    exact hc.reserve_nonneg

end Opinions.Integrity
