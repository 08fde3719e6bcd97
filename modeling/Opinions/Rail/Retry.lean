import Opinions.Rail.Replace

/-! Claims that fail (`claim_w2` of `application/src/money/withdraw_send.rs`,
`begin_refund_send` of `application/src/credit_deposit.rs`). A claim signs, inserts its
attempt, hands the bytes to the rail, and then writes and commits. When it fails after
signing, the rail may keep the bytes; a withdrawal that tries again has a new payment, a
refund the old one. -/

namespace Opinions.Rail

open Lib.Result Lib.Rows Lib.Run Model Store Trade Money Deposit

/-- A claim up to the rail: what is to be persisted for which payment, and the tables
its transaction sees. -/
structure Staged (σ : Type) where
  payment : Uuid
  signed : SignedBytes
  db : σ

/-- Where a store call fails after signing. -/
inductive ClaimPoint
  | insert
  | swap
  | append
  | commit

/-- A claim over the rail. What the rail keeps is not rolled back. -/
def claimOver {σ α : Type} (fault : Option (ClaimPoint × AppError)) (rails : SolanaRails)
    (stage : Except AppError (Staged σ)) (finish : σ → Except AppError (α × σ)) :
    Except AppError (α × σ) × SolanaRails :=
  match stage with
  | .error e => (.error e, rails)
  | .ok s =>
    match fault with
    | some (.insert, e) => (.error e, rails)
    | _ =>
      match rails.persistSigned s.payment s.signed.1 s.signed.2 with
      | .error e => (.error (.store e), rails)
      | .ok rails' =>
        match fault with
        | some (_, e) => (.error e, rails')
        | none => (finish s.db, rails')

def committed {σ α : Type} (db : σ) (answer : Except AppError (α × σ)) : σ :=
  match answer with
  | .ok (_, db') => db'
  | .error _ => db

def stageClaim (facts : SendFacts) (row : WithdrawalRow) (db : MoneyDb) :
    Except AppError (Staged MoneyDb) := do
  let (payment, paid) ← claimPayment facts row db
  ensurePaymentMatches payment row facts.identity
  refuse (paid.outbound.attemptsFor payment.id ≠ [])
    (.store (.invariant "W2 already has a send attempt"))
  let signed ← facts.signed.mapError .store
  let inserted ← insertAttempt (preparedAttempt facts payment.id 1 none signed) paid
  pure ⟨payment.id, (signed.1, signed.2.1), inserted⟩

def finishClaim (facts : SendFacts) (row : WithdrawalRow) (inserted : MoneyDb) :
    Except AppError (Sent × MoneyDb) := do
  let next := { row with combo := .w3 }
  let swapped ← inserted.casWithdrawal row.id .w2 next
  pure (⟨next, some .w3⟩, swapped.appendEvent facts.money row.id "send-claim" "machine" none)

def stageRefund (facts : RefundFacts) (payment : OutboundPaymentRow) (db : DepositDb) :
    Except AppError (Staged DepositDb) := do
  refuse (db.outbound.attemptsFor payment.id ≠ [])
    (.store (.invariant "approved refund already has an attempt"))
  let signed ← facts.signed.mapError .store
  let inserted ← insertRefundAttempt (preparedRefund facts payment.id 1 none signed) db
  pure ⟨payment.id, (signed.1, signed.2.1), inserted⟩

def finishRefund (row : DepositMachineRow) (payment : OutboundPaymentRow) (inserted : DepositDb) :
    Except AppError (RefundSent × DepositDb) := do
  let moved ← inserted.casDepositStatus row.id .refundApproved .refundSending
  pure (⟨refundReceipt row payment false, true⟩, moved)

def answerTo {σ : Type} (rails : SolanaRails) (stage : Except AppError (Staged σ)) :
    Except StoreError Unit :=
  match stage with
  | .ok s => (rails.persistSigned s.payment s.signed.1 s.signed.2).map fun _ => ()
  | .error _ => .ok ()

/-- Without a fault the claim is its transaction, with the rail's answer put in. -/
theorem claimOver_eq {σ α : Type} (rails : SolanaRails) (stage : Except AppError (Staged σ))
    (finish : σ → Except AppError (α × σ)) :
    (claimOver none rails stage finish).1 = (do
      let s ← stage
      (answerTo rails stage).mapError .store
      finish s.db) := by
  unfold claimOver answerTo
  cases stage with
  | error => rfl
  | ok s =>
    dsimp only
    cases rails.persistSigned s.payment s.signed.1 s.signed.2 <;> rfl

theorem claimW2_over (rails : SolanaRails) (facts : SendFacts) (row : WithdrawalRow)
    (db : MoneyDb) :
    (claimOver none rails (stageClaim facts row db) (finishClaim facts row)).1 =
      claimW2 { facts with persisted := answerTo rails (stageClaim facts row db) } row db := by
  rw [claimOver_eq]
  generalize answerTo rails (stageClaim facts row db) = answer
  simp only [stageClaim, claimW2, bind_assoc, pure_bind]
  rfl

theorem claimRefund_over (rails : SolanaRails) (facts : RefundFacts) (row : DepositMachineRow)
    (payment : OutboundPaymentRow) (db : DepositDb) :
    (claimOver none rails (stageRefund facts payment db) (finishRefund row payment)).1 =
      claimRefund { facts with persisted := answerTo rails (stageRefund facts payment db) } row
        payment db := by
  rw [claimOver_eq]
  generalize answerTo rails (stageRefund facts payment db) = answer
  simp only [stageRefund, claimRefund, bind_assoc, pure_bind]
  rfl

variable {rails : SolanaRails} {db' : MoneyDb} {r : WithdrawalRow} {facts : SendFacts}
  {signed : List UInt8 × String × Int} {payment : OutboundPaymentRow}

section Faults

variable {σ α : Type} {point : ClaimPoint} {e : AppError} {s : Staged σ}
  {finish : σ → Except AppError (α × σ)}

theorem committed_of_fault (db : σ) (stage : Except AppError (Staged σ)) :
    committed db (claimOver (some (point, e)) rails stage finish).1 = db := by
  unfold claimOver
  cases stage with
  | error => rfl
  | ok s =>
    cases point with
    | insert => rfl
    | swap | append | commit =>
      dsimp only
      cases rails.persistSigned s.payment s.signed.1 s.signed.2 <;> rfl

/-- A claim that failed past the rail leaves its bytes there. -/
theorem persisted_of_fault (hpoint : point ≠ .insert) (hfree : rails.Free s.payment s.signed) :
    (claimOver (some (point, e)) rails (.ok s) finish).2 = rails.hold s.payment s.signed := by
  have hpersist : rails.persistSigned s.payment s.signed.1 s.signed.2 =
      .ok (rails.hold s.payment s.signed) := SolanaRails.persistSigned_eq_ok.2 ⟨hfree, rfl⟩
  cases point with
  | insert => exact absurd rfl hpoint
  | swap | append | commit => simp only [claimOver, hpersist]

theorem claimOver_of_free (hfree : rails.Free s.payment s.signed) :
    (claimOver none rails (.ok s) finish).1 = finish s.db := by
  have hpersist : rails.persistSigned s.payment s.signed.1 s.signed.2 =
      .ok (rails.hold s.payment s.signed) := SolanaRails.persistSigned_eq_ok.2 ⟨hfree, rfl⟩
  simp only [claimOver, hpersist]

theorem free_of_claimOver {answer : α × σ}
    (h : (claimOver none rails (.ok s) finish).1 = .ok answer) :
    rails.Free s.payment s.signed := by
  by_contra hfree
  simp only [claimOver, SolanaRails.persistSigned_of_not_free hfree] at h
  cases h

end Faults

/-- Every withdrawal's payment has an attempt. -/
def Begun (o : Outbound) : Prop :=
  ∀ p ∈ o.payments, p.subject = .withdrawal → o.attemptRows p.id ≠ []

variable {o o' : Outbound} {a : OutboundAttemptRow}

theorem Begun.saved {current : OutboundAttemptRow} (h : Begun o) (hs : o.Saved a current o') :
    Begun o' := by
  intro p hp hsubject
  rw [hs.rows, update, ne_eq, List.map_eq_nil_iff]
  exact h p (hs.payments ▸ hp) hsubject

theorem Begun.inserted (h : Begun o) (hi : o.Inserted a o') : Begun o' := by
  intro p hp hsubject
  rw [hi.rows, ne_eq, List.append_eq_nil_iff, not_and]
  exact fun hnil => absurd hnil (h p (hi.payments ▸ hp) hsubject)

variable {row : WithdrawalRow}

theorem Begun.first (h : Begun o) (hv : o.Valid) (hf : FirstAttempt o row a o') : Begun o' := by
  obtain ⟨mid, p, hinsert, hpay, -, -, hmid⟩ := hf.payment
  rcases hmid with ⟨rfl, -⟩ | hpayment
  · exact h.inserted (Outbound.insertAttempt_spec hv hinsert)
  · obtain ⟨hv', hpayments, hattempts, -, -⟩ := Outbound.insertPayment_spec hv hpayment
    have hi := Outbound.insertAttempt_spec hv' hinsert
    intro q hq hsubject
    rw [hi.payments, hpayments, mem_concat] at hq
    rw [hi.rows]
    rcases hq with hq | rfl
    · rw [Outbound.attemptRows, hattempts, ne_eq, List.append_eq_nil_iff, not_and]
      exact fun hnil => absurd hnil (h q hq hsubject)
    · rw [if_pos hpay]
      simp

theorem Begun.attemptSaved (h : Begun o) (hs : AttemptSaved o row a o') : Begun o' := by
  obtain ⟨current, hsaved⟩ := Outbound.saveAttempt_spec hs.saved
  exact h.saved hsaved

theorem Begun.refund (h : Begun o) (hv : o.Valid) (hw : RefundWrite o o') : Begun o' := by
  cases hw with
  | payment p hsubject write =>
    obtain ⟨-, hpayments, hattempts, -, -⟩ := Outbound.insertPayment_spec hv write
    intro q hq hq'
    rw [hpayments, mem_concat] at hq
    rcases hq with hq | rfl
    · rw [Outbound.attemptRows, hattempts]
      exact h q hq hq'
    · rw [hsubject] at hq'
      contradiction
  | attempt p a _ _ _ write => exact h.inserted (Outbound.insertAttempt_spec hv write)
  | landing p a _ _ _ write =>
    obtain ⟨current, hsaved⟩ := Outbound.saveAttempt_spec write
    exact h.saved hsaved

variable {db : MoneyDb}

theorem Begun.effect (h : Begun db.outbound) (hv : db.outbound.Valid)
    (heffect : Money.Effect db db') : Begun db'.outbound := by
  cases heffect with
  | quiet _ _ hout | requested _ _ _ _ _ _ _ _ hout | reviewed _ _ _ _ _ _ hout
  | denied _ _ _ _ _ hout | settled _ _ _ _ _ _ _ _ hout => exact hout ▸ h
  | claimed _ _ _ _ _ _ _ hfirst => exact h.first hv hfirst
  | landed _ _ _ _ _ _ hattempt | noted _ _ _ _ _ hattempt | failed _ _ _ _ _ _ _ hattempt =>
    exact h.attemptSaved hattempt
  | replaced _ _ _ _ mid _ _ _ _ _ hfailed _ hinserted =>
    obtain ⟨current, hsaved⟩ := Outbound.saveAttempt_spec hfailed.saved
    exact (h.saved hsaved).inserted (Outbound.insertAttempt_spec (hsaved.valid hv) hinserted)
  | refund hwrite => exact h.refund hv hwrite

theorem begun_run (d : Digests) (cmds : List Money.Command) :
    Begun (run (MoneyDb.step d) MoneyDb.empty cmds).outbound := by
  refine (run_preserves (P := fun db => (Money.Conserved db ∧ Tracked db) ∧ Begun db.outbound)
    (fun _ _ _ _ h hstep => ?_) ⟨⟨Money.conserved_empty, tracked_empty⟩, ?_⟩).2
  · have heffect := MoneyDb.step_effect hstep
    exact ⟨⟨h.1.1.effect heffect, h.1.2.effect h.1.1.ids heffect⟩, h.2.effect h.1.2.valid heffect⟩
  · intro p hp
    simp [MoneyDb.empty] at hp

theorem payment_none {d : Digests} {cmds : List Money.Command}
    (hrow : row ∈ (run (MoneyDb.step d) MoneyDb.empty cmds).withdrawals)
    (hcombo : row.combo = .w2) :
    (run (MoneyDb.step d) MoneyDb.empty cmds).outbound.paymentBySubject .withdrawal row.id.uuid =
      none := by
  have hshape := (tracked_run d cmds).2.shape row hrow
  have hunsent : carried row.combo.send = none := by
    rw [hcombo]
    rfl
  rw [Shape, hunsent] at hshape
  refine Option.eq_none_iff_forall_ne_some.2 fun p hp => ?_
  rw [Outbound.sends_of_payment hp] at hshape
  have hsubject : p.subject = .withdrawal := congrArg Prod.fst (key_of_find hp)
  exact begun_run d cmds p (mem_of_find hp) hsubject hshape

/-- A stored withdrawal keeps its user, its destination and its amount. -/
def SameIntent (r r' : WithdrawalRow) : Prop :=
  r'.user = r.user ∧ r'.dest = r.dest ∧ r'.amountMicro = r.amountMicro

theorem sameIntent_step {r₁ : WithdrawalRow} (hr : db.withdrawal r.id = some r₁)
    (hsame : SameIntent r r₁) (heffect : Money.Effect db db') :
    ∃ r₂, db'.withdrawal r.id = some r₂ ∧ SameIntent r r₂ := by
  rcases heffect.rows with hw | ⟨row, hw⟩ | ⟨row, next, hmoved, -⟩
  · refine ⟨r₁, ?_, hsame⟩
    rwa [MoneyDb.withdrawal, hw]
  · refine ⟨r₁, ?_, hsame⟩
    rw [MoneyDb.withdrawal, hw, find_append]
    exact Option.or_eq_some_iff.2 (.inl hr)
  · by_cases hid : r.id = row.id
    · refine ⟨MoneyDb.written next r₁, ?_, hsame⟩
      rw [MoneyDb.withdrawal, hmoved.withdrawals, ← hid, find_update_self (MoneyDb.written_id next)]
      exact Option.map_eq_some_iff.2 ⟨r₁, hr, rfl⟩
    · refine ⟨r₁, ?_, hsame⟩
      rwa [MoneyDb.withdrawal, hmoved.withdrawals, find_update_of_ne (MoneyDb.written_id next) hid]

theorem sameIntent_run (d : Digests) (hr : db.withdrawal r.id = some r) (later : List Money.Command) :
    ∃ r', (run (MoneyDb.step d) db later).withdrawal r.id = some r' ∧ SameIntent r r' :=
  run_preserves (P := fun db => ∃ r', db.withdrawal r.id = some r' ∧ SameIntent r r')
    (fun _ _ _ _ ⟨_, hr', hsame⟩ hstep => sameIntent_step hr' hsame (MoneyDb.step_effect hstep))
    ⟨r, hr, rfl, rfl, rfl⟩

/-- A claim with what only it uses fresh: its transaction, and the ids of its attempt and
of a payment it would insert. -/
structure FreshClaim (o : Outbound) (facts : SendFacts) (signed : List UInt8 × String × Int)
    (rails : SolanaRails) : Prop where
  signer : facts.signed = .ok signed
  signs : o.Signs signed
  attempt : facts.freshAttempt ∉ o.attempts.map OutboundAttemptRow.id
  payment : facts.freshPayment ∉ o.payments.map OutboundPaymentRow.id
  rail : rails.persisted facts.freshPayment = none

/-- The payment of a staged first claim was inserted, so its amount is positive. -/
theorem amount_pos_of_staged {s : Staged MoneyDb}
    (hnone : db.outbound.paymentBySubject .withdrawal row.id.uuid = none)
    (h : stageClaim facts row db = .ok s) : 0 < row.amountMicro := by
  simp only [stageClaim, claimPayment, hnone, Outbound.insertPayment, ok_iff] at h
  obtain ⟨_, ⟨_, ⟨_, -, _, -, _, hpos, -⟩, -⟩, -⟩ := h
  exact not_le.1 hpos

theorem finishClaim_ok (facts : SendFacts) (hfound : db.withdrawal row.id = some row)
    (hcombo : row.combo = .w2) :
    ∃ sent db', finishClaim facts row db = .ok (sent, db') ∧ sent.row.combo = .w3 := by
  have hcas : db.casWithdrawal row.id .w2 { row with combo := .w3 } =
      .ok (db.writeRow row.id { row with combo := .w3 }) := by
    simp [MoneyDb.casWithdrawal, hfound, hcombo, pure, Except.pure]
  rw [finishClaim, hcas, ok_bind]
  exact ⟨_, _, rfl, rfl⟩

theorem claim_completes (hv : db.outbound.Valid) (hfound : db.withdrawal row.id = some row)
    (hcombo : row.combo = .w2) (hnone : db.outbound.paymentBySubject .withdrawal row.id.uuid = none)
    (hamount : 0 < row.amountMicro) (hfresh : FreshClaim db.outbound facts signed rails) :
    ∃ sent db', (claimOver none rails (stageClaim facts row db) (finishClaim facts row)).1 =
      .ok (sent, db') ∧ sent.row.combo = .w3 := by
  have hsubject : Outbound.subjectKey (paymentFor row facts.identity facts.freshPayment) ∉
      db.outbound.payments.map Outbound.subjectKey := by
    rwa [← find_isSome, Option.not_isSome_iff_eq_none]
  have hpay : db.outbound.insertPayment (paymentFor row facts.identity facts.freshPayment) =
      .ok { db.outbound with
        payments := db.outbound.payments ++
          [paymentFor row facts.identity facts.freshPayment] } := by
    simp only [Outbound.insertPayment, ok_iff]
    exact ⟨(), hfresh.payment, (), hsubject, (), not_le.2 hamount, trivial⟩
  obtain ⟨hv', -, -, -, -⟩ := Outbound.insertPayment_spec hv hpay
  set paid : Outbound := { db.outbound with
    payments := db.outbound.payments ++ [paymentFor row facts.identity facts.freshPayment] }
  have hmem : facts.freshPayment ∈ paid.payments.map OutboundPaymentRow.id := by
    simp [paid, paymentFor]
  have hrows : paid.attemptRows facts.freshPayment = [] :=
    (Outbound.insertPayment_spec hv hpay).2.2.2.2
  have hsigns : paid.Signs signed :=
    ⟨hfresh.signs.bytes, hfresh.signs.signature, hfresh.signs.lastValid, hfresh.signs.fresh⟩
  have hinsert := Outbound.insertAttempt_first hv' hmem hrows hsigns hfresh.attempt
    (facts.money.now + lease)
  have hmatch : ensurePaymentMatches (paymentFor row facts.identity facts.freshPayment) row
      facts.identity = .ok () := by
    simp [ensurePaymentMatches, paymentFor]
  have hstage : stageClaim facts row db = .ok ⟨facts.freshPayment, (signed.1, signed.2.1),
      { db with outbound := { paid with attempts := paid.attempts ++
        [preparedAttempt facts facts.freshPayment 1 none signed] } }⟩ := by
    simp only [stageClaim, claimPayment, hnone, insertAttempt, ok_iff]
    refine ⟨_, ⟨paid, hpay, rfl⟩, (), hmatch, (), ?_, signed, hfresh.signer, _,
      ⟨_, hinsert, rfl⟩, rfl⟩
    rw [not_not]
    exact (hv'.attemptsFor_eq _).trans hrows
  have hfree : rails.Free facts.freshPayment (signed.1, signed.2.1) := by
    intro held hheld
    rw [hfresh.rail] at hheld
    contradiction
  rw [hstage, claimOver_of_free hfree]
  exact finishClaim_ok facts hfound hcombo

/-- An approved refund that is not claimed yet, and its payment. -/
structure OpenRefund (db : DepositDb) (row : DepositMachineRow) (payment : OutboundPaymentRow) :
    Prop where
  mem : row ∈ db.deposits
  status : row.status = .refundApproved
  stored : db.refundPaymentForDeposit row.id = some payment
  unclaimed : db.outbound.attemptsFor payment.id = []

theorem stageRefund_ok {db : DepositDb} {row : DepositMachineRow} {facts : RefundFacts}
    (hv : db.outbound.Valid) (hopen : OpenRefund db row payment)
    (hsigner : facts.signed = .ok signed) (hsigns : db.outbound.Signs signed)
    (hid : facts.freshAttempt ∉ db.outbound.attempts.map OutboundAttemptRow.id) :
    ∃ o', stageRefund facts payment db =
      .ok ⟨payment.id, (signed.1, signed.2.1), { db with outbound := o' }⟩ := by
  have hmem : payment.id ∈ db.outbound.payments.map OutboundPaymentRow.id :=
    List.mem_map_of_mem (mem_of_find hopen.stored)
  have hrows : db.outbound.attemptRows payment.id = [] :=
    (hv.attemptsFor_eq _).symm.trans hopen.unclaimed
  have hinsert := Outbound.insertAttempt_first hv hmem hrows hsigns hid (facts.now + lease)
  obtain ⟨o', ho'⟩ : ∃ o', db.outbound.insertAttempt
      (preparedRefund facts payment.id 1 none signed) = .ok o' := ⟨_, hinsert⟩
  refine ⟨o', ?_⟩
  simp only [stageRefund, insertRefundAttempt, ok_iff]
  exact ⟨(), not_not.2 hopen.unclaimed, signed, hsigner, _, ⟨o', ho', rfl⟩, rfl⟩

theorem finishRefund_ok {db : DepositDb} {row : DepositMachineRow}
    (hids : (db.deposits.map DepositMachineRow.id).Nodup) (hopen : OpenRefund db row payment) :
    ∃ sent db', finishRefund row payment { db with outbound := o' } = .ok (sent, db') := by
  have hfound : db.depositMachineById row.id = some row := find_of_mem hids hopen.mem
  have hstatus : (({ db with outbound := o' } : DepositDb).depositMachineById row.id).map
      DepositMachineRow.status = some .refundApproved :=
    (congrArg (Option.map DepositMachineRow.status) hfound).trans (congrArg some hopen.status)
  simp only [finishRefund, DepositDb.casDepositStatus, hstatus]
  exact ⟨_, _, rfl⟩

/-- After a failed claim a withdrawal can always be claimed again. A refund can be exactly
when the rail keeps no other bytes for its payment, which it does if the claim failed
past the rail. -/
theorem failed_claim_retried (d : Digests) (hash : String → String) :
    (∀ (cmds later : List Money.Command) (row : WithdrawalRow) facts s point e rails,
      let db := run (MoneyDb.step d) MoneyDb.empty cmds
      let db₂ := run (MoneyDb.step d) MoneyDb.empty (cmds ++ later)
      row ∈ db.withdrawals → row.combo = .w2 → stageClaim facts row db = .ok s →
      committed db (claimOver (some (point, e)) rails (stageClaim facts row db)
        (finishClaim facts row)).1 = db ∧
      ∀ row₂ facts₂ signed rails₂, row₂ ∈ db₂.withdrawals → row₂.id = row.id → row₂.combo = .w2 →
        FreshClaim db₂.outbound facts₂ signed rails₂ →
        ∃ sent db₃, (claimOver none rails₂ (stageClaim facts₂ row₂ db₂)
          (finishClaim facts₂ row₂)).1 = .ok (sent, db₃) ∧ sent.row.combo = .w3) ∧
    ∀ (cmds later : List Deposit.Command) row payment facts s point e rails,
      let db := run (DepositDb.step hash) DepositDb.empty cmds
      let db₂ := run (DepositDb.step hash) DepositDb.empty (cmds ++ later)
      let failed := claimOver (some (point, e)) rails (stageRefund facts payment db)
        (finishRefund row payment)
      OpenRefund db row payment → stageRefund facts payment db = .ok s →
      committed db failed.1 = db ∧
      ∀ row₂ facts₂ signed rails₂, OpenRefund db₂ row₂ payment → row₂.id = row.id →
        failed.2.Keeps rails₂ → facts₂.signed = .ok signed → db₂.outbound.Signs signed →
        facts₂.freshAttempt ∉ db₂.outbound.attempts.map OutboundAttemptRow.id →
        ((∃ sent db₃, (claimOver none rails₂ (stageRefund facts₂ payment db₂)
            (finishRefund row₂ payment)).1 = .ok (sent, db₃)) ↔
          rails₂.Free payment.id (signed.1, signed.2.1)) ∧
        (point ≠ .insert → rails.Free payment.id s.signed → (signed.1, signed.2.1) ≠ s.signed →
          ¬rails₂.Free payment.id (signed.1, signed.2.1)) := by
  constructor
  · intro cmds later row facts s point e rails db db₂ hrow hcombo hstage
    refine ⟨committed_of_fault _ _, ?_⟩
    intro row₂ facts₂ signed rails₂ hrow₂ hid hcombo₂ hfresh
    obtain ⟨hc, -⟩ := tracked_run d cmds
    obtain ⟨hc₂, ht₂⟩ := tracked_run d (cmds ++ later)
    have hfound₂ := find_of_mem hc₂.ids hrow₂
    obtain ⟨row', hrow', hsame⟩ := sameIntent_run d (find_of_mem hc.ids hrow) later
    rw [← run_append, ← hid] at hrow'
    obtain rfl := Option.mem_unique hfound₂ hrow'
    have hamount := amount_pos_of_staged (payment_none hrow hcombo) hstage
    rw [← hsame.2.2] at hamount
    exact claim_completes ht₂.valid hfound₂ hcombo₂ (payment_none hrow₂ hcombo₂) hamount hfresh
  · intro cmds later row payment facts s point e rails db db₂ failed hopen hstage
    refine ⟨committed_of_fault _ _, ?_⟩
    intro row₂ facts₂ signed rails₂ hopen₂ hid hkeeps hsigner hsigns hattempt
    have hids₂ := (Deposit.conserved_run hash (cmds ++ later)).ids
    obtain ⟨o', hstage₂⟩ := stageRefund_ok (chained_run hash (cmds ++ later)).valid hopen₂ hsigner
      hsigns hattempt
    refine ⟨⟨?_, fun hfree => ?_⟩, ?_⟩
    · rintro ⟨sent, db₃, hclaim⟩
      rw [hstage₂] at hclaim
      exact free_of_claimOver hclaim
    · rw [hstage₂, claimOver_of_free hfree]
      exact finishRefund_ok hids₂ hopen₂
    · intro hpoint hfree hne hfree₂
      have hpayment : s.payment = payment.id := by
        simp only [stageRefund, ok_iff] at hstage
        obtain ⟨_, -, _, -, _, -, rfl⟩ := hstage
        rfl
      rw [← hpayment] at hfree hfree₂
      have hheld : failed.2.persisted s.payment = some s.signed := by
        have hfailed : failed.2 = rails.hold s.payment s.signed := by
          dsimp only [failed]
          rw [hstage]
          exact persisted_of_fault hpoint hfree
        rw [hfailed, SolanaRails.persisted_hold]
      exact hne (hfree₂ s.signed (hkeeps _ _ hheld)).symm

/-! An approved withdrawal and an approved refund whose first claims fail. -/

def approvedWithdrawal : MoneyDb :=
  run (MoneyDb.step plainDigests) MoneyDb.empty ((replacedHistory ⟨5⟩ ⟨9⟩).take 4)

def approvedRefund : DepositDb := run (DepositDb.step id) DepositDb.empty approvedHistory

def commitFailed : AppError := .store (.backend "commit")

/-- The withdrawal's claim fails at its commit and the refund's before the rail; both are
claimed again. -/
theorem failed_claims_completed :
    (∃ row ∈ approvedWithdrawal.withdrawals, ∃ sent db',
      (claimOver none SolanaRails.new
        (stageClaim (replacedSend "second" 2 5) row approvedWithdrawal)
        (finishClaim (replacedSend "second" 2 5) row)).1 = .ok (sent, db') ∧
      sent.row.combo = .w3) ∧
    ∃ row ∈ approvedRefund.deposits, ∃ payment sent db',
      (claimOver none SolanaRails.new
        (stageRefund (refundFacts 20 .refundApproved "second" 2 5) payment approvedRefund)
        (finishRefund row payment)).1 = .ok (sent, db') := by
  constructor
  · obtain ⟨row, hrow, hcombo, hstaged⟩ : ∃ row ∈ approvedWithdrawal.withdrawals,
        row.combo = .w2 ∧ (stageClaim (replacedSend "first" 1 5) row approvedWithdrawal).isOk := by
      decide +kernel
    obtain ⟨s, hs⟩ := exists_of_isOk hstaged
    have hempty : approvedWithdrawal.outbound = ⟨[], []⟩ := by decide +kernel
    have hfresh : FreshClaim approvedWithdrawal.outbound (replacedSend "second" 2 5)
        ([1], "second", 10) SolanaRails.new := by
      rw [hempty]
      exact ⟨rfl, ⟨by decide, by decide +kernel, by decide, by decide⟩, by decide, by decide, rfl⟩
    have hretry := ((failed_claim_retried plainDigests id).1 ((replacedHistory ⟨5⟩ ⟨9⟩).take 4) [] row
      (replacedSend "first" 1 5) s .commit commitFailed SolanaRails.new)
    dsimp only at hretry
    rw [List.append_nil, ← approvedWithdrawal] at hretry
    exact ⟨row, hrow, (hretry hrow hcombo hs).2 row (replacedSend "second" 2 5) ([1], "second", 10)
      SolanaRails.new hrow rfl hcombo hfresh⟩
  · obtain ⟨row, hrow, hstatus, payment, -, hp, hnone, hstaged⟩ : ∃ row ∈ approvedRefund.deposits,
        row.status = .refundApproved ∧ ∃ p ∈ approvedRefund.outbound.payments,
          approvedRefund.refundPaymentForDeposit row.id = some p ∧
          approvedRefund.outbound.attemptsFor p.id = [] ∧
          (stageRefund (refundFacts 20 .refundApproved "first" 1 5) p approvedRefund).isOk := by
      decide +kernel
    obtain ⟨s, hs⟩ := exists_of_isOk hstaged
    have hempty : approvedRefund.outbound.attempts = [] := by decide +kernel
    have hopen : OpenRefund approvedRefund row payment := ⟨hrow, hstatus, hp, hnone⟩
    have hsigns : approvedRefund.outbound.Signs ([1], "second", 10) := by
      refine ⟨by decide, by decide +kernel, by decide, ?_⟩
      rw [hempty]
      decide
    have hattempt : (2 : Uuid) ∉ approvedRefund.outbound.attempts.map OutboundAttemptRow.id := by
      rw [hempty]
      decide
    have hretry := (failed_claim_retried plainDigests id).2 approvedHistory [] row payment
      (refundFacts 20 .refundApproved "first" 1 5) s .insert commitFailed SolanaRails.new
    dsimp only at hretry
    rw [List.append_nil, ← approvedRefund] at hretry
    obtain ⟨hiff, -⟩ := (hretry hopen hs).2 row (refundFacts 20 .refundApproved "second" 2 5)
      ([1], "second", 10) SolanaRails.new hopen rfl (by rw [hs]; exact fun _ _ h => h) rfl hsigns
      hattempt
    exact ⟨row, hrow, payment, hiff.2 fun _ hheld => absurd hheld (by simp [SolanaRails.new])⟩

/-- A refund's claim fails at its commit; the claim signed afresh is refused by the rail. -/
theorem refund_claim_stuck : let payment : OutboundPaymentRow :=
      { id := 7, subject := .depositRefund, subjectId := 9, dest := "source", amountMicro := 40
        railFingerprint := replacedIdentity.fingerprint }
    approvedRefund.outbound = ⟨[payment], []⟩ ∧
    ∃ row ∈ approvedRefund.deposits, row.status = .refundApproved ∧
      let failed := claimOver (some (.commit, commitFailed)) SolanaRails.new
        (stageRefund (refundFacts 20 .refundApproved "first" 1 5) payment approvedRefund)
        (finishRefund row payment)
      failed.1.map Prod.fst = .error commitFailed ∧
      (claimOver none failed.2
        (stageRefund (refundFacts 20 .refundApproved "second" 2 5) payment approvedRefund)
        (finishRefund row payment)).1.map Prod.fst =
        .error (.store (.conflict "persisted signed bytes changed")) := by
  decide +kernel

end Opinions.Rail
