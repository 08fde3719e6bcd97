import Opinions.Deposit.Machine

/-! Evaluating a held deposit again. Each evaluation collects the user's debts under a key
made of the deposit alone, and a hold commits what it collected. From then on the key is
booked, and an evaluation that finds anything to collect is refused by the ledger. -/

namespace Opinions.Deposit

open Lib.Checked Lib.Result Lib.Run Domain.Ledger Model Store Trade Money

/-- What an evaluation does once the debts are collected. -/
def settleAdmission (facts : AdmitFacts) (row : DepositMachineRow) (user : UserId)
    (collected : Int) (swept : DepositDb) : Except AppError (DepositReceipt × DepositDb) := do
  let banned ← facts.banned.mapError .store
  match if banned then .error (.complianceHold "banned") else facts.gate with
  | .error e =>
    if (admissionHoldReason e).isSome then holdAdmission row collected swept else .error e
  | .ok () => admitFrom .admissionPending user row collected facts.afterwards swept

/-- The key of the collection is free, or there is nothing to collect. -/
def Unblocked (l : Ledger) (user : UserId) (key : String) (ingress : Ingress) : Prop :=
  ∀ converted, ingress.lots.foldlM (convertLot user) l = .ok converted →
    "recv-collect:" ++ key ∉ converted.txns.map LedgerTxn.key ∨
      min ingress.receivables.sum (max (converted.balanceOf (cash (.user user))) 0) = 0

variable {receivables : List Int} {l' : Ledger}

theorem owed_eq {start owed : Int}
    (h : receivables.foldlM (fun sum r => okOr (tryI64 (sum + r)) AppError.overflow) start =
      .ok owed) : owed = start + receivables.sum := by
  induction receivables generalizing start with
  | nil =>
    rw [List.foldlM_nil, pure_eq_ok] at h
    simp [h]
  | cons r receivables ih =>
    simp only [List.foldlM_cons, ok_iff, tryI64_eq_some] at h
    obtain ⟨_, ⟨rfl, -⟩, h⟩ := h
    rw [ih h, List.sum_cons, add_assoc]

variable {l : Ledger} {user : UserId} {key other : String}

/-- What one key can be used for, any free key can. -/
theorem ledgerApply_iff_fresh {kind : TxnKind} {entries : List (Entry AccountKey)}
    (h : l.ledgerApply kind other entries = .ok l') :
    (∃ l', l.ledgerApply kind key entries = .ok l') ↔ key ∉ l.txns.map LedgerTxn.key := by
  simp only [Ledger.ledgerApply, ok_iff] at h ⊢
  obtain ⟨vec, hvec, txn, htxn, posts, hposts, -⟩ := h
  constructor
  · rintro ⟨_, _, _, _, _, _, _, _, hfresh, -⟩
    exact hfresh
  · exact fun hfresh => ⟨_, vec, hvec, txn, htxn, posts, hposts, (), hfresh, rfl⟩

/-- A collection that goes through under some key goes through under this one exactly if it
is not blocked. -/
theorem autoCollect_iff (h : autoCollect l user other receivables = .ok l') :
    (∃ l', autoCollect l user key receivables = .ok l') ↔
      "recv-collect:" ++ key ∉ l.txns.map LedgerTxn.key ∨
        min receivables.sum (max (l.balanceOf (cash (.user user))) 0) = 0 := by
  simp only [autoCollect, bind_eq_ok] at h ⊢
  obtain ⟨owed, howed, h⟩ := h
  have hsum := owed_eq howed
  rw [zero_add] at hsum
  simp only [howed, Except.ok.injEq, exists_eq_left']
  rw [Ledger.balanceOf_account, ← hsum] at *
  split_ifs at h ⊢ with hzero hnone
  · exact iff_of_true ⟨l, rfl⟩ (by simp [hzero])
  · exact iff_of_true ⟨_, rfl⟩ (.inr hnone)
  · simp only [mapError_eq_ok] at h ⊢
    rw [ledgerApply_iff_fresh h]
    simp [hnone]

theorem collecting_iff {ingress : Ingress} {p : Int × Ledger}
    (h : collecting l user other ingress = .ok p) :
    (∃ p, collecting l user key ingress = .ok p) ↔ Unblocked l user key ingress := by
  simp only [collecting, ok_iff] at h ⊢
  obtain ⟨converted, hconverted, ledger, hcollect, -⟩ := h
  simp only [Unblocked, hconverted, Except.ok.injEq, forall_eq', exists_eq_left']
  rw [← autoCollect_iff hcollect]
  constructor
  · rintro ⟨_, l', hl, -⟩
    exact ⟨l', hl⟩
  · rintro ⟨l', hl⟩
    exact ⟨_, l', hl, rfl⟩

def sampleDeposit : ObservedDeposit :=
  { user := some ⟨7#128⟩, amount := 100, chainSig := "s", sourceAddress := "a", destAddress := "b"
    mint := "m", slot := 1 }

def sampleAdmit (seen : DepositMachineStatus) (receivables : List Int)
    (gate : Except AppError Unit) : AdmitFacts :=
  { seen := seen, amlOpen := .ok false, before := ⟨[], receivables⟩, banned := .ok false
    gate := gate, afterwards := ⟨[], []⟩ }

theorem paid_beside (amount : Int) : ∀ e ∈ ([⟨cash .external, -amount⟩,
    ⟨cash (.user ⟨7#128⟩), amount⟩] : List (Entry AccountKey)), ¬IsSuspense e.account := by
  simp [IsSuspense, suspense, cash]

/-- The user gets cash. -/
def samplePaid (key : String) (amount : Int) : Command :=
  .post .deposit key _ (paid_beside amount)

/-- A user with 5 who owes 20 makes a deposit, which is held. -/
def sampleHeld : DepositDb :=
  run (DepositDb.step id) .empty [samplePaid "first" 5, .observe sampleDeposit "rail" ⟨9#128⟩,
    .admitObserved (sampleAdmit .observedFinalized [20] (.error (.complianceHold "kyc"))) "s"
      .machine false]

def sampleRow : DepositMachineRow :=
  { id := ⟨9#128⟩, user := some ⟨7#128⟩, amount := 100, chainSig := "s", sourceAddress := "a"
    destAddress := "b", mint := "m", railFingerprint := "rail", slot := 1
    status := .complianceHold, suspenseTx := none, admitTx := none, refundTx := none }

end Opinions.Deposit
