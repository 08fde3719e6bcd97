import Opinions.Money.Attempts

/-! Which attempts a command declares failed. A withdrawal's attempt is condemned by two
commands only, `replace_expired` and `prove_non_landing`; either one condemns the live
attempt of the payment, on a verdict taken from the observations it was given. Deposit
refunds share the tables and condemn attempts of their own. -/

namespace Opinions.Money

open Lib.Result Lib.Rows Lib.Run Domain.Ledger Store Trade

/-- The same signed transaction, in whatever state. -/
structure OutboundAttemptRow.Same (a b : OutboundAttemptRow) : Prop where
  id : b.id = a.id
  paymentId : b.paymentId = a.paymentId
  signature : b.signature = a.signature
  lastValidBlockHeight : b.lastValidBlockHeight = a.lastValidBlockHeight

theorem OutboundAttemptRow.Same.refl (a : OutboundAttemptRow) : a.Same a := ⟨rfl, rfl, rfl, rfl⟩

variable {a : OutboundAttemptRow} {p : OutboundPaymentRow} {db : MoneyDb} {c : Command}

theorem OutboundAttemptRow.Same.trans {b c : OutboundAttemptRow} (h : a.Same b) (h' : b.Same c) :
    a.Same c :=
  ⟨h'.id.trans h.id, h'.paymentId.trans h.paymentId, h'.signature.trans h.signature,
    h'.lastValidBlockHeight.trans h.lastValidBlockHeight⟩

variable {o o' : Outbound} {db' : MoneyDb} {row : WithdrawalRow}

namespace Outbound

/-- The attempt belongs to a deposit refund. -/
def RefundOwned (o : Outbound) (a : OutboundAttemptRow) : Prop :=
  ∃ p ∈ o.payments, p.subject = .depositRefund ∧ a.paymentId = p.id

/-- Nothing is lost, and of the withdrawals' attempts only `condemned` is newly failed. -/
structure Kept (condemned : Option OutboundAttemptRow) (o o' : Outbound) : Prop where
  payments : ∀ p ∈ o.payments, p ∈ o'.payments
  attempts : ∀ a ∈ o.attempts, ∃ a' ∈ o'.attempts, a.Same a'
  failed : ∀ b ∈ o'.attempts, b.landingState = .definitiveFailed →
    o'.RefundOwned b ∨ b ∈ o.attempts ∨ ∃ a, condemned = some a ∧ a.Same b

namespace Kept

variable {condemned : Option OutboundAttemptRow} {o₁ : Outbound}

theorem refl (o : Outbound) : Kept none o o where
  payments := fun _ hp => hp
  attempts := fun a ha => ⟨a, ha, .refl a⟩
  failed := fun _ hb _ => Or.inr (Or.inl hb)

theorem of_eq (h : o' = o) : Kept none o o' := h ▸ refl o

theorem refundOwned (h : Kept condemned o o') (ha : o.RefundOwned a) : o'.RefundOwned a := by
  obtain ⟨p, hp, hsubject, hid⟩ := ha
  exact ⟨p, h.payments p hp, hsubject, hid⟩

/-- What follows a write adds nothing to the failed ones. -/
theorem trans (h : Kept condemned o o₁) (h' : Kept none o₁ o') : Kept condemned o o' where
  payments := fun p hp => h'.payments p (h.payments p hp)
  attempts := by
    intro a ha
    obtain ⟨b, hb, hab⟩ := h.attempts a ha
    obtain ⟨c, hc, hbc⟩ := h'.attempts b hb
    exact ⟨c, hc, hab.trans hbc⟩
  failed := by
    intro b hb hfailed
    rcases h'.failed b hb hfailed with howned | hb | ⟨_, hnone, -⟩
    · exact Or.inl howned
    · exact (h.failed b hb hfailed).imp_left h'.refundOwned
    · cases hnone

theorem insertPayment (hv : o.Valid) (h : o.insertPayment p = .ok o') : Kept none o o' := by
  obtain ⟨-, hpayments, hattempts, -, -⟩ := insertPayment_spec hv h
  refine ⟨fun q hq => hpayments ▸ List.mem_append_left _ hq, fun a ha => ?_, fun b hb _ => ?_⟩
  · exact ⟨a, hattempts ▸ ha, .refl a⟩
  · exact Or.inr (Or.inl (hattempts ▸ hb))

theorem insertAttempt (hv : o.Valid) (h : o.insertAttempt a = .ok o') : Kept none o o' := by
  have hi := insertAttempt_spec hv h
  refine ⟨fun p hp => hi.payments ▸ hp, fun b hb => ?_, fun b hb hfailed => ?_⟩
  · exact ⟨b, hi.attempts ▸ List.mem_append_left _ hb, .refl b⟩
  · rw [hi.attempts, mem_concat] at hb
    rcases hb with hb | rfl
    · exact Or.inr (Or.inl hb)
    · rw [hi.prepared] at hfailed
      cases hfailed

/-- A save keeps what identifies the attempt; the saved one is the only one it may fail. -/
theorem of_saved {current : OutboundAttemptRow} (hv : o.Valid) (hs : Saved o a current o')
    (hfailed : a.landingState = .definitiveFailed → o.RefundOwned current ∨ condemned = some current) :
    Kept condemned o o' where
  payments := fun p hp => hs.payments ▸ hp
  attempts := by
    intro b hb
    refine ⟨_, hs.attempts ▸ mem_update.2 ⟨b, hb, rfl⟩, ?_⟩
    split_ifs
    · exact ⟨rfl, rfl, rfl, rfl⟩
    · exact .refl b
  failed := by
    intro b hb hb'
    rw [hs.attempts] at hb
    obtain ⟨r, hr, rfl⟩ := mem_update.1 hb
    by_cases hid : r.id = a.id
    · obtain rfl := hs.current_eq hv hr hid
      rw [if_pos hid] at hb' ⊢
      rcases hfailed hb' with ⟨p, hp, howned⟩ | hcondemned
      · exact Or.inl ⟨p, hs.payments ▸ hp, howned⟩
      · exact Or.inr (Or.inr ⟨current, hcondemned, ⟨rfl, rfl, rfl, rfl⟩⟩)
    · rw [if_neg hid]
      exact Or.inr (Or.inl hr)

theorem saveAttempt (hv : o.Valid) (h : o.saveAttempt a = .ok o')
    (hstate : a.landingState ≠ .definitiveFailed) : Kept none o o' := by
  obtain ⟨current, hs⟩ := saveAttempt_spec h
  exact of_saved hv hs fun hfailed => absurd hfailed hstate

/-- Failing an attempt of the table condemns that one. -/
theorem condemn (hv : o.Valid) (ha : a ∈ o.attempts)
    (h : o.saveAttempt { a with landingState := .definitiveFailed } = .ok o') :
    Kept (some a) o o' := by
  obtain ⟨current, hs⟩ := saveAttempt_spec h
  have hcurrent : current = a := hs.current_eq hv ha rfl
  exact of_saved hv hs fun _ => Or.inr (congrArg some hcurrent.symm)

theorem saveRefund (hv : o.Valid) (hp : p ∈ o.payments) (hsubject : p.subject = .depositRefund)
    (hid : a.paymentId = p.id) (h : o.saveAttempt a = .ok o') : Kept none o o' := by
  obtain ⟨current, hs⟩ := saveAttempt_spec h
  exact of_saved hv hs fun _ => Or.inl ⟨p, hp, hsubject, hs.payment.trans hid⟩

end Kept

end Outbound

open Outbound

theorem Landing.not_failed {start stop : Combo} {state : LandingState}
    (h : Landing start state stop) : state ≠ .definitiveFailed := by
  cases h <;> rintro ⟨⟩

theorem claimW2_kept {facts : SendFacts} {sent : Sent} (hv : db.outbound.Valid)
    (h : claimW2 facts row db = .ok (sent, db')) : Kept none db.outbound db'.outbound := by
  simp only [claimW2, MoneyDb.casWithdrawal, ok_iff] at h
  obtain ⟨⟨payment, paid⟩, hpaid, _, -, _, -, signed, -, inserted, hins, _, -, _, ⟨_, -, rfl⟩, -,
    rfl⟩ := h
  obtain ⟨o, ho, rfl⟩ := Money.insertAttempt_spec hins
  unfold claimPayment at hpaid
  split at hpaid
  · cases hpaid
    exact Kept.insertAttempt hv ho
  · simp only [ok_iff] at hpaid
    obtain ⟨o', ho', rfl, rfl⟩ := hpaid
    exact (Kept.insertPayment hv ho').trans (Kept.insertAttempt (insertPayment_spec hv ho').1 ho)

theorem refund_kept (hv : o.Valid) (h : RefundWrite o o') : Kept none o o' := by
  cases h with
  | payment _ _ write => exact Kept.insertPayment hv write
  | attempt _ _ _ _ _ write => exact Kept.insertAttempt hv write
  | landing p a mem subject owner write => exact Kept.saveRefund hv mem subject owner write

/-- The live attempt of a withdrawal's payment. -/
def MoneyDb.liveSend (db : MoneyDb) (id : WithdrawalId) : Option OutboundAttemptRow := do
  let payment ← db.outbound.paymentBySubject .withdrawal id.uuid
  (db.outbound.liveAttempt payment.id).toOption.join

theorem liveSend_of_required {id : WithdrawalId} {payment : OutboundPaymentRow}
    (hp : db.outbound.paymentBySubject .withdrawal id.uuid = some payment)
    (ha : requireLiveAttempt payment db = .ok a) : db.liveSend id = some a := by
  rw [MoneyDb.liveSend, hp, Option.bind_eq_bind, Option.bind_some, requireLiveAttempt_spec ha]
  rfl

/-- The command's verdict on the live attempt of the withdrawal it is for. -/
def Condemns (db : MoneyDb) (c : Command) (a : OutboundAttemptRow) : Prop :=
  ∃ id observations endpoints, proofOf c = some (id, observations, endpoints) ∧
    db.liveSend id = some a ∧
    safeNonLandingVerdict a.lastValidBlockHeight observations endpoints = .definitiveFailed

section Proofs

/-- The live attempt a proof condemns. -/
theorem condemns_of_live (hs : Sending db row p) (hlive : requireLiveAttempt p db = .ok a)
    (hproof : ∃ observations endpoints, proofOf c = some (row.id, observations, endpoints) ∧
      safeNonLandingVerdict a.lastValidBlockHeight observations endpoints = .definitiveFailed) :
    a ∈ db.outbound.attempts ∧ ∀ b, some a = some b → Condemns db c b := by
  obtain ⟨observations, endpoints, hproof, hverdict⟩ := hproof
  refine ⟨(mem_attemptRows.1 (liveAttempt_mem (requireLiveAttempt_spec hlive)).1).1, ?_⟩
  rintro b ⟨⟩
  exact ⟨row.id, observations, endpoints, hproof, liveSend_of_required hs.payment hlive, hverdict⟩

theorem SendStep.kept (hv : db.outbound.Valid) (h : SendStep (proofOf c) db db') :
    ∃ condemned, Kept condemned db.outbound db'.outbound ∧
      ∀ a, condemned = some a → Condemns db c a := by
  cases h with
  | same nothing => exact ⟨none, .of_eq (nothing ▸ rfl), by rintro _ ⟨⟩⟩
  | landed facts row next start kind p a state saved hs owner edge kept save cas =>
    obtain ⟨o, ho, rfl⟩ := Money.saveAttempt_spec save
    obtain ⟨-, -, -, hout⟩ := finishCas_spec cas hs.found (by rw [kept])
    refine ⟨none, ?_, by rintro _ ⟨⟩⟩
    rw [hout]
    exact Kept.saveAttempt hv ho edge.not_failed
  | noted row p a hs owner combo state save =>
    obtain ⟨o, ho, rfl⟩ := Money.saveAttempt_spec save
    exact ⟨none, Kept.saveAttempt hv ho (by rw [state]; rintro ⟨⟩), by rintro _ ⟨⟩⟩
  | claimed facts row sent found claim => exact ⟨none, claimW2_kept hv claim, by rintro _ ⟨⟩⟩
  | replaced facts row p old sent hs live condemned replace =>
    simp only [replaceAttempt, ok_iff] at replace
    obtain ⟨failed, hfailed, _, -, _, -, inserted, hins, _, -, _, hcas, -, rfl⟩ := replace
    obtain ⟨o, ho, rfl⟩ := Money.saveAttempt_spec hfailed
    obtain ⟨o', ho', rfl⟩ := Money.insertAttempt_spec hins
    obtain ⟨-, -, -, hout⟩ := finishCas_spec hcas hs.found rfl
    obtain ⟨current, hsaved⟩ := Outbound.saveAttempt_spec ho
    obtain ⟨hmem, hcondemns⟩ := condemns_of_live hs live condemned
    refine ⟨some old, ?_, hcondemns⟩
    rw [hout]
    exact (Kept.condemn hv hmem ho).trans (Kept.insertAttempt (hsaved.valid hv) ho')
  | failed facts row p a key kind released saved hs live condemned combo release save cas =>
    simp only [MoneyDb.applyRelease, ok_iff] at release
    obtain ⟨ledger, -, rfl⟩ := release
    obtain ⟨o, ho, rfl⟩ := Money.saveAttempt_spec save
    obtain ⟨-, -, -, hout⟩ := finishCas_spec cas hs.found rfl
    obtain ⟨hmem, hcondemns⟩ := condemns_of_live hs live condemned
    refine ⟨some a, ?_, hcondemns⟩
    rw [hout]
    exact Kept.condemn hv hmem ho
  | settled facts row key kind booked found settle cas =>
    simp only [MoneyDb.applySettle, ok_iff] at settle
    obtain ⟨ledger, -, rfl⟩ := settle
    obtain ⟨-, -, -, hout⟩ := finishCas_spec cas found rfl
    exact ⟨none, .of_eq hout, by rintro _ ⟨⟩⟩

/-- Whatever the command, the only withdrawal's attempt it fails is one its proof condemns. -/
theorem step_kept {d : Digests} (hv : db.outbound.Valid) (h : db.step d c = .ok db') :
    ∃ condemned, Kept condemned db.outbound db'.outbound ∧
      ∀ a, condemned = some a → Condemns db c a := by
  cases MoneyDb.step_stepped h with
  | request done => exact ⟨none, .of_eq (requestWithdraw_effect done).2, by rintro _ ⟨⟩⟩
  | decide done => exact ⟨none, .of_eq (decideWithdraw_effect done).2, by rintro _ ⟨⟩⟩
  | send done => exact done.kept hv
  | refund done => exact ⟨none, refund_kept hv done, by rintro _ ⟨⟩⟩
  | post => exact ⟨none, .refl _, by rintro _ ⟨⟩⟩

end Proofs

end Opinions.Money
