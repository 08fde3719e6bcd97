import Opinions.Lib.Lineage
import Opinions.Money.Withdrawal

/-! Outbound payments and their send attempts (`adapters/src/pg/outbound_tx.rs`,
`application/src/money/outbound.rs`). A payment's attempts form a lineage: every
replacement has the next number and names the attempt it replaces, which must have
failed for good. The tables' partial unique indexes on live and finalized attempts
are left out; nothing proved here needs them. -/

namespace Opinions.Money

open Lib.Result Lib.Rows Lib.Lineage Model Store

structure Outbound where
  payments : List OutboundPaymentRow
  attempts : List OutboundAttemptRow
  deriving DecidableEq

/-- White space, as the Unicode property has it. -/
def isWhitespace (c : Char) : Bool :=
  (9 ≤ c.toNat ∧ c.toNat ≤ 13) ∨ c.toNat = 32 ∨ c.toNat = 133 ∨ c.toNat = 160 ∨ c.toNat = 5760 ∨
    (8192 ≤ c.toNat ∧ c.toNat ≤ 8202) ∨ c.toNat = 8232 ∨ c.toNat = 8233 ∨ c.toNat = 8239 ∨
    c.toNat = 8287 ∨ c.toNat = 12288

/-- Empty after trimming. -/
def isBlank (s : String) : Bool := s.toList.all isWhitespace

def nextI32 (n : Int) : Int := min (n + 1) 2147483647

def nextAttemptNumber (existing : List OutboundAttemptRow) : Int :=
  nextI32 ((existing.map OutboundAttemptRow.attemptNumber).max?.getD 0)

def legalAttemptEdge (start next : LandingState) : Bool :=
  decide (start = next) ||
    match start, next with
    | .prepared, .broadcast | .prepared, .unknown | .prepared, .finalized
    | .prepared, .definitiveFailed | .broadcast, .unknown | .broadcast, .finalized
    | .unknown, .finalized | .unknown, .definitiveFailed => true
    | _, _ => false

def validateAttemptLineage (attempt : OutboundAttemptRow) (expectedNumber : Int)
    (previous : Option OutboundAttemptRow) : Except StoreError Unit := do
  refuse (attempt.attemptNumber ≠ expectedNumber)
    (.invariant "outbound attempt number is not monotone")
  match previous with
  | none =>
    refuse (attempt.replacesAttemptId ≠ none)
      (.invariant "first outbound attempt has replacement lineage")
  | some p =>
    refuse (attempt.replacesAttemptId ≠ some p.id ∨ p.landingState ≠ .definitiveFailed)
      (.invariant "outbound replacement lineage is invalid")

def validatePreparedShape (attempt : OutboundAttemptRow) : Except StoreError Unit :=
  refuse (attempt.signedTxBytes = [] ∨ isBlank attempt.signature ∨
    attempt.lastValidBlockHeight ≤ 0 ∨ attempt.landingState ≠ .prepared ∨
    attempt.leaseExpiresAt = none) (.invariant "outbound prepared attempt shape")

def validateAttemptUpdate (attempt current : OutboundAttemptRow) : Except StoreError Unit := do
  refuse (current.paymentId ≠ attempt.paymentId ∨ current.attemptNumber ≠ attempt.attemptNumber ∨
    current.replacesAttemptId ≠ attempt.replacesAttemptId ∨
    current.signedTxBytes ≠ attempt.signedTxBytes ∨ current.signature ≠ attempt.signature ∨
    current.lastValidBlockHeight ≠ attempt.lastValidBlockHeight)
    (.invariant "outbound attempt immutable fields changed")
  refuse (legalAttemptEdge current.landingState attempt.landingState = false)
    (.invariant "illegal outbound attempt transition")

/-- The row with the columns a save may write. -/
def OutboundAttemptRow.saved (a row : OutboundAttemptRow) : OutboundAttemptRow :=
  { row with landingState := a.landingState, leaseExpiresAt := a.leaseExpiresAt }

namespace Outbound

def subjectKey (p : OutboundPaymentRow) : OutboundSubject × Uuid := (p.subject, p.subjectId)

instance : LawfulBEq (OutboundSubject × Uuid) := inferInstance

def insertPayment (o : Outbound) (p : OutboundPaymentRow) : Except StoreError Outbound := do
  refuse (p.id ∈ o.payments.map OutboundPaymentRow.id) (.integrity "outbound_payments_pkey")
  refuse (subjectKey p ∈ o.payments.map subjectKey)
    (.integrity "outbound_payments_subject_subject_id_key")
  refuse (p.amountMicro ≤ 0) (.integrity "outbound_payments_amount_micro_check")
  pure { o with payments := o.payments ++ [p] }

def paymentBySubject (o : Outbound) (subject : OutboundSubject) (subjectId : Uuid) :
    Option OutboundPaymentRow :=
  find subjectKey (subject, subjectId) o.payments

/-- A payment's attempts in the order they were inserted. -/
def attemptRows (o : Outbound) (payment : Uuid) : List OutboundAttemptRow :=
  o.attempts.filter fun a => a.paymentId = payment

/-- A payment's attempts by number. -/
def attemptsFor (o : Outbound) (payment : Uuid) : List OutboundAttemptRow :=
  (o.attemptRows payment).insertionSort fun a b => a.attemptNumber ≤ b.attemptNumber

def liveAttempt (o : Outbound) (payment : Uuid) :
    Except StoreError (Option OutboundAttemptRow) := do
  refuse (payment ∉ o.payments.map OutboundPaymentRow.id) (.notFound "outbound payment")
  match (o.attemptsFor payment).filter fun a => a.landingState.isLive with
  | [] => pure none
  | [a] => pure (some a)
  | _ => .error (.invariant "multiple live outbound attempts")

def insertAttempt (o : Outbound) (a : OutboundAttemptRow) : Except StoreError Outbound := do
  refuse (a.paymentId ∉ o.payments.map OutboundPaymentRow.id) (.notFound "outbound payment")
  let previous := (o.attemptsFor a.paymentId).getLast?
  let expectedNumber := previous.elim 1 fun p => nextI32 p.attemptNumber
  validateAttemptLineage a expectedNumber previous
  validatePreparedShape a
  refuse (a.signature ∈ o.attempts.map OutboundAttemptRow.signature)
    (.conflict "outbound signature")
  refuse (a.id ∈ o.attempts.map OutboundAttemptRow.id) (.integrity "outbound_send_attempts_pkey")
  refuse (a.attemptNumber ∈ (o.attemptRows a.paymentId).map OutboundAttemptRow.attemptNumber)
    (.integrity "outbound_send_attempts_payment_id_attempt_number_key")
  pure { o with attempts := o.attempts ++ [a] }

def others (o : Outbound) (a : OutboundAttemptRow) : List OutboundAttemptRow :=
  o.attempts.filter fun b => b.paymentId = a.paymentId ∧ b.id ≠ a.id

def saveAttempt (o : Outbound) (a : OutboundAttemptRow) : Except StoreError Outbound := do
  refuse (a.paymentId ∉ o.payments.map OutboundPaymentRow.id) (.notFound "outbound payment")
  let current ← okOr (find OutboundAttemptRow.id a.id o.attempts) (.notFound "outbound attempt")
  validateAttemptUpdate a current
  refuse (a.landingState.isLive ∧ (o.others a).any fun b => b.landingState.isLive)
    (.invariant "multiple live outbound attempts")
  refuse (a.landingState = .finalized ∧
    (o.others a).any fun b => b.landingState = .finalized)
    (.invariant "multiple finalized outbound attempts")
  pure { o with attempts := update OutboundAttemptRow.id a.id a.saved o.attempts }

/-- What an attempt shows of its lineage. -/
def scheme : Scheme OutboundAttemptRow Uuid where
  id := OutboundAttemptRow.id
  number := OutboundAttemptRow.attemptNumber
  parent := OutboundAttemptRow.replacesAttemptId

/-- Identifiers are unique and every payment's attempts are one lineage from 1 on. -/
structure Valid (o : Outbound) : Prop where
  payment_ids : (o.payments.map OutboundPaymentRow.id).Nodup
  subjects : (o.payments.map subjectKey).Nodup
  attempt_ids : (o.attempts.map OutboundAttemptRow.id).Nodup
  signatures : (o.attempts.map OutboundAttemptRow.signature).Nodup
  owned : ∀ a ∈ o.attempts, a.paymentId ∈ o.payments.map OutboundPaymentRow.id
  lineage : ∀ payment, Follows scheme none 1 (o.attemptRows payment)

variable {o : Outbound} {a : OutboundAttemptRow}

theorem mem_attemptRows {payment : Uuid} :
    a ∈ o.attemptRows payment ↔ a ∈ o.attempts ∧ a.paymentId = payment := by
  simp [attemptRows]

theorem Valid.attemptsFor_eq (h : o.Valid) (payment : Uuid) :
    o.attemptsFor payment = o.attemptRows payment :=
  ((h.lineage payment).pairwise.imp fun hab => le_of_lt hab).insertionSort_eq

theorem Valid.rows_ids (h : o.Valid) (payment : Uuid) :
    ((o.attemptRows payment).map OutboundAttemptRow.id).Nodup :=
  h.attempt_ids.sublist (List.filter_sublist.map _)

theorem Valid.eq_of_signature (h : o.Valid) {b : OutboundAttemptRow} (ha : a ∈ o.attempts)
    (hb : b ∈ o.attempts) (hab : a.signature = b.signature) : a = b :=
  List.inj_on_of_nodup_map h.signatures ha hb hab

variable {o' : Outbound}

theorem insertPayment_spec {p : OutboundPaymentRow} (h : o.Valid)
    (hins : o.insertPayment p = .ok o') :
    o'.Valid ∧ o'.payments = o.payments ++ [p] ∧ o'.attempts = o.attempts ∧
      subjectKey p ∉ o.payments.map subjectKey ∧ o.attemptRows p.id = [] := by
  simp only [insertPayment, ok_iff] at hins
  obtain ⟨_, hid, _, hsub, _, -, rfl⟩ := hins
  refine ⟨⟨?_, ?_, h.attempt_ids, h.signatures, ?_, h.lineage⟩, rfl, rfl, hsub, ?_⟩
  · simpa using h.payment_ids.concat hid
  · simpa using h.subjects.concat hsub
  · intro a ha
    rw [List.map_append]
    exact List.mem_append_left _ (h.owned a ha)
  · refine List.filter_eq_nil_iff.2 fun a ha => ?_
    have hown := h.owned a ha
    simp only [decide_eq_true_eq]
    intro heq
    exact hid (heq ▸ hown)

/-- What inserting an attempt did. -/
structure Inserted (o : Outbound) (a : OutboundAttemptRow) (o' : Outbound) : Prop where
  payments : o'.payments = o.payments
  attempts : o'.attempts = o.attempts ++ [a]
  payment : a.paymentId ∈ o.payments.map OutboundPaymentRow.id
  prepared : a.landingState = .prepared
  id_fresh : a.id ∉ o.attempts.map OutboundAttemptRow.id
  signature_fresh : a.signature ∉ o.attempts.map OutboundAttemptRow.signature
  failed : ∀ p, (o.attemptRows a.paymentId).getLast? = some p →
    p.landingState = .definitiveFailed
  follows : Follows scheme none 1 (o.attemptRows a.paymentId ++ [a])

/-- The lineage checks and the unique number leave only the next number, also where
the 32-bit increment saturates. -/
theorem follows_of_lineage {prior : List OutboundAttemptRow} (hprior : Follows scheme none 1 prior)
    (hnumber : a.attemptNumber = prior.getLast?.elim 1 fun p => nextI32 p.attemptNumber)
    (hparent : a.replacesAttemptId = last scheme none prior)
    (hunique : a.attemptNumber ∉ prior.map OutboundAttemptRow.attemptNumber) :
    Follows scheme none 1 (prior ++ [a]) := by
  refine follows_concat.2 ⟨hprior, ?_, hparent⟩
  change a.attemptNumber = 1 + (prior.length : Int)
  rcases List.eq_nil_or_concat' prior with rfl | ⟨init, p, rfl⟩
  · simpa using hnumber
  · obtain ⟨-, hp, -⟩ := follows_concat.1 hprior
    change p.attemptNumber = 1 + (init.length : Int) at hp
    have hnums := hprior.numbers
    simp only [List.getLast?_append, List.getLast?_singleton, Option.some_or, Option.elim_some,
      hp, nextI32] at hnumber
    rw [List.length_append, List.length_singleton]
    push_cast
    by_contra hne
    -- the increment saturated, so the number is among the earlier ones
    have hmax : a.attemptNumber = 2147483647 := by omega
    refine hunique (hmax ▸ ?_)
    change (2147483647 : Int) ∈ (init ++ [p]).map scheme.number
    rw [hnums, List.mem_map]
    refine ⟨2147483646, List.mem_range.2 ?_, by norm_num⟩
    rw [List.length_append, List.length_singleton]
    omega

theorem insertAttempt_spec (h : o.Valid) (hins : o.insertAttempt a = .ok o') : Inserted o a o' := by
  simp only [insertAttempt, validateAttemptLineage, validatePreparedShape, h.attemptsFor_eq,
    ok_iff] at hins
  obtain ⟨_, hpay, _, ⟨_, hnumber, hparent⟩, _, hshape, _, hsig, _, hid, _, hunique, rfl⟩ := hins
  have hlast : a.replacesAttemptId = last scheme none (o.attemptRows a.paymentId) ∧
      ∀ p, (o.attemptRows a.paymentId).getLast? = some p →
        p.landingState = .definitiveFailed := by
    cases hprev : (o.attemptRows a.paymentId).getLast? with
    | none =>
      rw [hprev] at hparent
      simp only [refuse_eq_ok, not_not] at hparent
      exact ⟨by rw [last, hprev]; exact hparent, by simp⟩
    | some =>
      rw [hprev] at hparent
      simp only [refuse_eq_ok, not_or, not_not] at hparent
      refine ⟨by rw [last, hprev]; exact hparent.1, ?_⟩
      rintro q ⟨⟩
      exact hparent.2
  refine ⟨rfl, rfl, not_not.1 hpay, ?_, hid, hsig, hlast.2, ?_⟩
  · simp only [not_or, not_not] at hshape
    exact hshape.2.2.2.1
  · exact follows_of_lineage (h.lineage _) (not_not.1 hnumber) hlast.1 hunique

theorem Inserted.rows (h : Inserted o a o') (payment : Uuid) :
    o'.attemptRows payment =
      o.attemptRows payment ++ if a.paymentId = payment then [a] else [] := by
  rw [attemptRows, h.attempts, List.filter_append]
  congr 1
  split_ifs with hp <;> simp [hp]

theorem Inserted.valid (h : Inserted o a o') (hv : o.Valid) : o'.Valid where
  payment_ids := h.payments ▸ hv.payment_ids
  subjects := h.payments ▸ hv.subjects
  attempt_ids := by
    rw [h.attempts, List.map_append, List.map_singleton]
    simpa using hv.attempt_ids.concat h.id_fresh
  signatures := by
    rw [h.attempts, List.map_append, List.map_singleton]
    simpa using hv.signatures.concat h.signature_fresh
  owned := by
    intro b hb
    rw [h.attempts, mem_concat] at hb
    rw [h.payments]
    rcases hb with hb | rfl
    · exact hv.owned b hb
    · exact h.payment
  lineage := by
    intro payment
    rw [h.rows]
    split_ifs with hp
    · subst hp
      exact h.follows
    · rw [List.append_nil]
      exact hv.lineage payment

/-- What saving an attempt did to the row `current`. -/
structure Saved (o : Outbound) (a current : OutboundAttemptRow) (o' : Outbound) : Prop where
  payments : o'.payments = o.payments
  attempts : o'.attempts = update OutboundAttemptRow.id a.id a.saved o.attempts
  found : find OutboundAttemptRow.id a.id o.attempts = some current
  payment : current.paymentId = a.paymentId
  signature : current.signature = a.signature
  edge : legalAttemptEdge current.landingState a.landingState = true

theorem saveAttempt_spec (hsave : o.saveAttempt a = .ok o') : ∃ current, Saved o a current o' := by
  simp only [saveAttempt, validateAttemptUpdate, ok_iff] at hsave
  obtain ⟨_, -, current, hfind, _, ⟨_, himm, hedge⟩, _, -, _, -, rfl⟩ := hsave
  simp only [not_or, not_not] at himm
  exact ⟨current, rfl, rfl, hfind, himm.1, himm.2.2.2.2.1, by simpa using hedge⟩

variable {current : OutboundAttemptRow}

theorem Saved.rows (h : Saved o a current o') (payment : Uuid) :
    o'.attemptRows payment = update OutboundAttemptRow.id a.id a.saved (o.attemptRows payment) := by
  rw [attemptRows, h.attempts, update, List.filter_map, attemptRows, update]
  congr 1
  refine List.filter_congr fun b _ => ?_
  dsimp only [Function.comp_apply]
  split_ifs <;> rfl

theorem Saved.rows_of_ne (h : Saved o a current o') (hv : o.Valid) {payment : Uuid}
    (hne : a.paymentId ≠ payment) :
    o'.attemptRows payment = o.attemptRows payment := by
  rw [h.rows]
  refine update_of_notMem fun hmem => hne ?_
  obtain ⟨b, hb, hid⟩ := List.mem_map.1 hmem
  obtain ⟨hb, hpay⟩ := mem_attemptRows.1 hb
  -- identifiers are unique, so `b` is the saved row
  have hfind := find_of_mem hv.attempt_ids hb
  rw [hid, h.found, Option.some.injEq] at hfind
  rw [← h.payment, hfind, hpay]

theorem Saved.map_eq {α : Type} (h : Saved o a current o') {g : OutboundAttemptRow → α}
    (hg : ∀ r, g (a.saved r) = g r) :
    o'.attempts.map g = o.attempts.map g := by
  rw [h.attempts, update, List.map_map]
  refine List.map_congr_left fun r _ => ?_
  dsimp only [Function.comp_apply]
  split_ifs
  · exact hg r
  · rfl

theorem Saved.valid (h : Saved o a current o') (hv : o.Valid) : o'.Valid where
  payment_ids := h.payments ▸ hv.payment_ids
  subjects := h.payments ▸ hv.subjects
  attempt_ids := by
    rw [h.map_eq fun _ => rfl]
    exact hv.attempt_ids
  signatures := by
    rw [h.map_eq fun _ => rfl]
    exact hv.signatures
  owned := by
    intro b hb
    rw [h.attempts] at hb
    obtain ⟨r, hr, rfl⟩ := mem_update.1 hb
    rw [h.payments]
    have := hv.owned r hr
    split_ifs <;> exact this
  lineage := by
    intro payment
    rw [h.rows, update]
    refine (hv.lineage payment).map fun r => ?_
    split_ifs <;> exact ⟨rfl, rfl, rfl⟩

end Outbound

end Opinions.Money
