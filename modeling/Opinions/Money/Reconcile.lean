import Opinions.Money.Send

/-! Reconciling sent withdrawals with the chain and settling them
(`application/src/money/withdraw_reconcile.rs`, `withdraw_settle.rs`). A receipt is
looked up by its signature among all attempts of the payment; a proof that nothing
landed is about the live attempt alone. -/

namespace Opinions.Money

open Lib.Result Model Store Trade

/-- The lease of a sending attempt is held, or its signature must be looked up first. -/
def refuseSending (now : Instant) (attempt : OutboundAttemptRow) : Except AppError Unit := do
  let leaseExpiresAt ← okOr attempt.leaseExpiresAt
    (.store (.invariant "W3 attempt has no send lease"))
  refuse (now < leaseExpiresAt) (.proposalConflict "send lease still held")
  .error (.proposalConflict "W3 recovery requires signature lookup")

def markUnknown (facts : MoneyFacts) (id : WithdrawalId) (user : UserId) (db : MoneyDb) :
    Except AppError (WithdrawalRow × MoneyDb) := do
  let row ← lockedRow id user db
  if row.combo = .w7 then pure (row, db)
  else do
    refuse (row.combo ≠ .w6 ∧ row.combo ≠ .w3) .illegalTransition
    let payment ← storedPayment row db
    let attempt ← requireLiveAttempt payment db
    if row.combo = .w3 then do
      refuseSending facts.now attempt
      pure (row, db)
    else do
      let saved ← saveAttempt { attempt with landingState := .unknown } db
      let next := { row with combo := .w7 }
      let swapped ← finishCas facts row.combo next "mark-unknown" saved
      pure (next, swapped)

def recoverW3 (facts : SendFacts) (id : WithdrawalId) (user : UserId) (db : MoneyDb) :
    Except AppError (WithdrawalRow × MoneyDb) := do
  let row ← lockedRow id user db
  if row.combo = .w6 ∨ row.combo = .w7 then pure (row, db)
  else do
    refuse (row.combo ≠ .w3) .illegalTransition
    let payment ← matchedPayment facts.identity row db
    let attempt ← requireLiveAttempt payment db
    expiredPrepared facts.money.now "W3 recovery attempt is not prepared"
      "W3 attempt has no send lease" attempt
    if presenceOf facts = .present then do
      let saved ← saveAttempt { attempt with landingState := .broadcast } db
      let next := { row with combo := .w6, sentAt := some (row.sentAt.getD facts.money.now) }
      let swapped ← finishCas facts.money .w3 next "lease-lookup-hit" saved
      pure (next, swapped)
    else do
      refuse (presenceOf facts = .absent ∧ stillValid facts.height attempt = true)
        (.proposalConflict "prepared attempt still requires same-bytes rebroadcast")
      let saved ← saveAttempt { attempt with landingState := .unknown } db
      let next := { row with combo := .w7 }
      let swapped ← finishCas facts.money .w3 next "lease-lookup-unknown" saved
      pure (next, swapped)

def verifiedReceipt (identity : RailIdentity) (payment : OutboundPaymentRow)
    (attempt : OutboundAttemptRow) (receipt : ChainReceipt) : Except AppError Unit :=
  (verifyChainReceipt identity payment attempt receipt).mapError (AppError.configInvalid "receipt")

def observeFinalized (facts : MoneyFacts) (identity : RailIdentity) (receipt : ChainReceipt)
    (id : WithdrawalId) (user : UserId) (db : MoneyDb) :
    Except AppError (WithdrawalRow × MoneyDb) := do
  let row ← lockedRow id user db
  refuse (row.combo ∉ [Combo.w6, Combo.w7, Combo.w8, Combo.w9, Combo.w10]) .illegalTransition
  let payment ← matchedPayment identity row db
  let attempt ← okOr
    ((db.outbound.attemptsFor payment.id).find? fun a => a.signature = receipt.signature)
    (.store (.notFound "outbound attempt"))
  verifiedReceipt identity payment attempt receipt
  if row.combo = .w9 ∨ row.combo = .w10 then do
    refuse (attempt.landingState ≠ .finalized)
      (.store (.invariant "finalized withdrawal has no finalized attempt"))
    pure (row, db)
  else do
    let saved ← saveAttempt { attempt with landingState := .finalized } db
    let next := { row with combo := .w9 }
    let swapped ← finishCas facts row.combo next "observe-finalized" saved
    pure (next, swapped)

/-- The proof is inconclusive: the attempt is unknown, and so is the row. -/
def keepUnknown (facts : MoneyFacts) (row : WithdrawalRow) (attempt : OutboundAttemptRow)
    (db : MoneyDb) : Except AppError (WithdrawalRow × MoneyDb) := do
  let saved ← saveAttempt { attempt with landingState := .unknown } db
  if row.combo = .w7 then pure (row, saved)
  else do
    let next := { row with combo := .w7 }
    let swapped ← finishCas facts row.combo next "non-landing-unknown" saved
    pure (next, swapped)

def failDefinitively (facts : MoneyFacts) (row : WithdrawalRow) (attempt : OutboundAttemptRow)
    (db : MoneyDb) : Except AppError (WithdrawalRow × MoneyDb) := do
  let released ← (db.applyRelease row.user row.amountMicro (releaseKey row.id)).mapError
    AppError.store
  let saved ← saveAttempt { attempt with landingState := .definitiveFailed } released
  let next := { row with releaseTx := some (releaseKey row.id), combo := .w15 }
  let swapped ← finishCas facts row.combo next "definitive-fail" saved
  pure (next, swapped)

def proveNonLanding (facts : MoneyFacts) (identity : RailIdentity)
    (observations : List QuorumObservation) (id : WithdrawalId) (user : UserId) (db : MoneyDb) :
    Except AppError (WithdrawalRow × MoneyDb) := do
  let row ← lockedRow id user db
  if row.combo = .w15 then pure (row, db)
  else do
    refuse (row.combo ≠ .w7 ∧ row.combo ≠ .w8) .illegalTransition
    let payment ← matchedPayment identity row db
    let attempt ← requireLiveAttempt payment db
    if safeNonLandingVerdict attempt.lastValidBlockHeight observations identity.rpcEndpoints =
        .unknown then
      keepUnknown facts row attempt db
    else
      failDefinitively facts row attempt db

def settleKey (id : WithdrawalId) : String := "withdraw-settle:" ++ String.ofList id.uuid.text

/-- A settlement key that is taken while the row is unsettled is reported as corruption. -/
def settleError : StoreError → AppError
  | .duplicateKey => .store (.invariant "settle key exists while withdrawal is W9")
  | e => .store e

def settleWithdraw (facts : MoneyFacts) (identity : RailIdentity) (receipt : ChainReceipt)
    (id : WithdrawalId) (user : UserId) (db : MoneyDb) :
    Except AppError (WithdrawalRow × MoneyDb) := do
  let row ← lockedRow id user db
  refuse (row.combo ≠ .w9 ∧ row.combo ≠ .w10) .illegalTransition
  let payment ← matchedPayment identity row db
  let attempt ← okOr ((db.outbound.attemptsFor payment.id).find? fun a =>
    a.landingState = .finalized ∧ a.signature = receipt.signature)
    (.store (.notFound "finalized attempt"))
  verifiedReceipt identity payment attempt receipt
  if row.combo = .w10 then pure (row, db)
  else do
    let settled ← (db.applySettle row.amountMicro (settleKey row.id)).mapError settleError
    let next := { row with
      settleTx := some (settleKey row.id), settledAt := some facts.now, combo := .w10 }
    let swapped ← finishCas facts .w9 next "settle" settled
    pure (next, swapped)

section Reconciliations

variable {proof : Option (WithdrawalId × List QuorumObservation × List String)}
  {facts : MoneyFacts} {identity : RailIdentity} {receipt : ChainReceipt}
  {observations : List QuorumObservation} {id : WithdrawalId} {user : UserId} {r : WithdrawalRow}
  {db db' : MoneyDb}

theorem markUnknown_step (h : markUnknown facts id user db = .ok (r, db')) :
    SendStep proof db db' := by
  simp only [markUnknown, bind_eq_ok] at h
  obtain ⟨row, hrow, h⟩ := h
  obtain ⟨hfound, -⟩ := lockedRow_spec hrow
  split_ifs at h with h7 h3
  · exact .same (Prod.mk.inj (pure_eq_ok.1 h)).2.symm
  · -- a sending row is never marked from here
    simp only [refuseSending, ok_iff] at h
    obtain ⟨_, -, _, -, _, -, _, ⟨_, -, _, -, h⟩, -⟩ := h
    cases h
  · simp only [storedPayment, ok_iff] at h
    obtain ⟨_, hstart, payment, hp, attempt, hlive, saved, hsave, swapped, hcas, -, rfl⟩ := h
    have h6 : row.combo = .w6 := by
      by_contra h6
      exact hstart ⟨h6, h3⟩
    refine .landed _ row _ _ _ payment _ _ saved ⟨hfound, hp⟩ (paymentId_of_required hlive) ?_ rfl
      hsave hcas (by decide)
    rw [h6]
    exact .missing

theorem recoverW3_step {facts : SendFacts} (h : recoverW3 facts id user db = .ok (r, db')) :
    SendStep proof db db' := by
  simp only [recoverW3, bind_eq_ok] at h
  obtain ⟨row, hrow, h⟩ := h
  obtain ⟨hfound, -⟩ := lockedRow_spec hrow
  split_ifs at h
  · exact .same (Prod.mk.inj (pure_eq_ok.1 h)).2.symm
  all_goals simp only [ok_iff] at h
  · obtain ⟨_, -, payment, hp, attempt, hlive, _, -, saved, hsave, swapped, hcas, -, rfl⟩ := h
    exact .landed _ row _ _ _ payment _ _ saved ⟨hfound, matchedPayment_spec hp⟩
      (paymentId_of_required hlive) .broadcast rfl hsave hcas (by decide)
  · obtain ⟨_, -, payment, hp, attempt, hlive, _, -, _, -, saved, hsave, swapped, hcas, -, rfl⟩ := h
    exact .landed _ row _ _ _ payment _ _ saved ⟨hfound, matchedPayment_spec hp⟩
      (paymentId_of_required hlive) .lost rfl hsave hcas (by decide)

/-- What an accepted receipt was accepted for: an attempt of the row's payment with the
receipt's signature, saved as finalized unless the row was already. -/
theorem observeFinalized_spec (h : observeFinalized facts identity receipt id user db = .ok (r, db')) :
    ∃ row payment attempt, db.withdrawal row.id = some row ∧ row.id = id ∧
      db.outbound.paymentBySubject .withdrawal row.id.uuid = some payment ∧
      attempt ∈ db.outbound.attemptRows payment.id ∧ attempt.signature = receipt.signature ∧
      (attempt.landingState = .finalized ∧ r = row ∧ db' = db ∨
        (row.combo = .w6 ∨ row.combo = .w7 ∨ row.combo = .w8) ∧
        ∃ saved, saveAttempt { attempt with landingState := .finalized } db = .ok saved ∧
          finishCas facts row.combo { row with combo := .w9 } "observe-finalized" saved =
            .ok db') := by
  simp only [observeFinalized, not_not, ok_iff] at h
  obtain ⟨row, hrow, _, hcombo, payment, hp, attempt, hattempt, _, -, h⟩ := h
  obtain ⟨hfound, hid⟩ := lockedRow_spec hrow
  have hmem := (List.mem_insertionSort _).1 (List.mem_of_find?_eq_some hattempt)
  have hsig := List.find?_some hattempt
  refine ⟨row, payment, attempt, hfound, hid, matchedPayment_spec hp, hmem, by simpa using hsig, ?_⟩
  split_ifs at h with hdone
  · simp only [not_not, ok_iff] at h
    obtain ⟨_, hfinal, rfl, rfl⟩ := h
    exact Or.inl ⟨hfinal, rfl, rfl⟩
  · simp only [ok_iff] at h
    obtain ⟨saved, hsave, swapped, hcas, -, rfl⟩ := h
    refine Or.inr ⟨?_, saved, hsave, hcas⟩
    simp only [List.mem_cons, List.not_mem_nil, or_false] at hcombo
    tauto

theorem observeFinalized_step
    (h : observeFinalized facts identity receipt id user db = .ok (r, db')) :
    SendStep proof db db' := by
  obtain ⟨row, payment, attempt, hfound, -, hp, hmem, -, h⟩ := observeFinalized_spec h
  rcases h with ⟨-, -, rfl⟩ | ⟨hcombo, saved, hsave, hcas⟩
  · exact .same rfl
  · refine .landed _ row _ _ _ payment _ _ saved ⟨hfound, hp⟩ (Outbound.mem_attemptRows.1 hmem).2.symm
      ?_ rfl hsave hcas (by decide)
    rcases hcombo with hc | hc | hc <;> rw [hc]
    · exact .broadcastLanded
    · exact .unknownLanded
    · exact .preparedLanded

theorem proveNonLanding_step
    (h : proveNonLanding facts identity observations id user db = .ok (r, db')) :
    SendStep (some (id, observations, identity.rpcEndpoints)) db db' := by
  simp only [proveNonLanding, bind_eq_ok] at h
  obtain ⟨row, hrow, h⟩ := h
  obtain ⟨hfound, rfl⟩ := lockedRow_spec hrow
  split_ifs at h
  · exact .same (Prod.mk.inj (pure_eq_ok.1 h)).2.symm
  simp only [ok_iff] at h
  obtain ⟨_, hcombo, payment, hp, attempt, hlive, h⟩ := h
  have hstart : row.combo = .w7 ∨ row.combo = .w8 := by tauto
  have hsending : Sending db row payment := ⟨hfound, matchedPayment_spec hp⟩
  have hid := paymentId_of_required hlive
  split_ifs at h with hproof
  · simp only [keepUnknown, bind_eq_ok] at h
    obtain ⟨saved, hsave, h⟩ := h
    split_ifs at h with h7
    · obtain ⟨-, rfl⟩ := Prod.mk.inj (pure_eq_ok.1 h)
      exact .noted row payment { attempt with landingState := .unknown } hsending hid h7 rfl hsave
    · simp only [ok_iff] at h
      obtain ⟨swapped, hcas, -, rfl⟩ := h
      refine .landed _ row _ _ _ payment _ _ saved hsending hid ?_ rfl hsave hcas (by decide)
      rw [hstart.resolve_left h7]
      exact .lostAgain
  · simp only [failDefinitively, ok_iff] at h
    obtain ⟨released, hrelease, saved, hsave, swapped, hcas, -, rfl⟩ := h
    refine .failed _ row payment attempt _ _ released saved hsending hlive ⟨_, _, rfl, ?_⟩ hstart
      hrelease hsave hcas (by decide)
    cases hverdict : safeNonLandingVerdict attempt.lastValidBlockHeight observations
        identity.rpcEndpoints with
    | definitiveFailed => rfl
    | unknown => exact absurd hverdict hproof

theorem settleWithdraw_step (h : settleWithdraw facts identity receipt id user db = .ok (r, db')) :
    SendStep proof db db' := by
  simp only [settleWithdraw, bind_eq_ok] at h
  obtain ⟨row, hrow, _, -, payment, -, attempt, -, _, -, h⟩ := h
  obtain ⟨hfound, -⟩ := lockedRow_spec hrow
  split_ifs at h
  · exact .same (Prod.mk.inj (pure_eq_ok.1 h)).2.symm
  · simp only [ok_iff] at h
    obtain ⟨booked, hsettle, swapped, hcas, -, rfl⟩ := h
    exact .settled _ row _ _ booked hfound hsettle hcas (by decide)

end Reconciliations

end Opinions.Money
