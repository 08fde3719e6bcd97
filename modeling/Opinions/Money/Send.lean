import Opinions.Money.Decide

/-! Sending an approved withdrawal (`application/src/money/withdraw_send.rs`). The
claim persists a signed attempt in its own transaction; the broadcast follows, and a
second transaction moves the row on. Between the two any other command may run, so
that second transaction is a step of its own. -/

namespace Opinions.Money

open Lib.Result Lib.Rows Model Store Trade

def lease : Int := 30000000000

inductive SignaturePresence
  | present
  | absent
  | unknown
  deriving DecidableEq

/-- What the signer, the rail and the chain answer, and the fresh identifiers. -/
structure SendFacts where
  money : MoneyFacts
  identity : RailIdentity
  signed : Except StoreError (List UInt8 × String × Int)
  persisted : Except StoreError Unit
  presence : Except StoreError SignaturePresence
  height : Except StoreError Int
  freshPayment : Uuid
  freshAttempt : Uuid

/-- The row a send transaction leaves, and the state a broadcast would move on from. -/
structure Sent where
  row : WithdrawalRow
  follow : Option Combo

def ensurePaymentMatches (payment : OutboundPaymentRow) (row : WithdrawalRow)
    (identity : RailIdentity) : Except AppError Unit :=
  refuse (payment.subject ≠ .withdrawal ∨ payment.subjectId ≠ row.id.uuid ∨
    payment.dest ≠ row.dest ∨ payment.amountMicro ≠ row.amountMicro ∨
    payment.railFingerprint ≠ identity.fingerprint)
    (.store (.invariant "outbound payment intent mismatch"))

def storedPayment (row : WithdrawalRow) (db : MoneyDb) : Except AppError OutboundPaymentRow :=
  okOr (db.outbound.paymentBySubject .withdrawal row.id.uuid) (.store (.notFound "outbound payment"))

def matchedPayment (identity : RailIdentity) (row : WithdrawalRow) (db : MoneyDb) :
    Except AppError OutboundPaymentRow := do
  let payment ← storedPayment row db
  ensurePaymentMatches payment row identity
  pure payment

def requireLiveAttempt (payment : OutboundPaymentRow) (db : MoneyDb) :
    Except AppError OutboundAttemptRow := do
  let live ← (db.outbound.liveAttempt payment.id).mapError .store
  okOr live (.store (.notFound "outbound attempt"))

def saveAttempt (a : OutboundAttemptRow) (db : MoneyDb) : Except AppError MoneyDb := do
  let outbound ← (db.outbound.saveAttempt a).mapError .store
  pure { db with outbound := outbound }

def insertAttempt (a : OutboundAttemptRow) (db : MoneyDb) : Except AppError MoneyDb := do
  let outbound ← (db.outbound.insertAttempt a).mapError .store
  pure { db with outbound := outbound }

/-- The compare-and-swap of a send step and its event. -/
def finishCas (facts : MoneyFacts) (start : Combo) (next : WithdrawalRow) (kind : String)
    (db : MoneyDb) : Except AppError MoneyDb := do
  let db ← db.casWithdrawal next.id start next
  pure (db.appendEvent facts next.id kind "machine" none)

/-- A risk that applies now and was not recorded before the approval. -/
def tightened (applies : Prop) [Decidable applies] (reason : String) (row : WithdrawalRow) :
    Except AppError Unit :=
  refuse (applies ∧ reason ∉ row.riskReasons)
    (.moneyForbidden "withdrawal risk tightened after approval")

def ensureSendAllowed (facts : MoneyFacts) (row : WithdrawalRow) (db : MoneyDb) :
    Except AppError Unit := do
  let limits ← facts.limits.mapError .store
  let view ← facts.view.mapError .store
  refuse (limits.pauseWithdrawals = true) (.moneyForbidden "withdrawals are paused")
  refuse (view.status = .banned) (.moneyForbidden "account is banned")
  tightened (view.status = .shadowLimited) "shadow_limited" row
  refuse (view.kycTier < limits.withdrawKycTier) (.moneyForbidden "kyc tier too low")
  let flags ← facts.openAmlFlags.mapError .store
  refuse (0 < flags) (.moneyForbidden "open AML flag")
  refuse (isFreshClear facts.sanctions facts.now = false)
    (.moneyForbidden "sanctions screening is not fresh Clear")
  refuse (isFreshClear facts.geo facts.now = false)
    (.moneyForbidden "geo screening is not fresh Clear")
  refuse ((∃ t ∈ view.selfExcludedUntil, facts.now < t) ∧
    db.isSelfExclusionEgress facts row.user row.dest = false) (.moneyForbidden
      "self-excluded user may only use a settled or observation-source destination")
  tightened (limits.autoApproveMicro ≤ row.amountMicro) "amount_ge_auto" row
  tightened (limits.dualControlMicro ≤ row.amountMicro) "amount_ge_dual" row
  let warmth ← (db.destWarmth facts limits row.dest).mapError .store
  tightened (warmth.isWarm limits facts.now = false) "dest_not_warm" row
  tightened (2 ≤ warmth.distinctUsers) "dest_shared" row
  tightened (warmth.isRefundDest = true) "dest_is_refund" row
  let outstanding := facts.receivables.foldl saturatingAdd 0
  refuse (0 < outstanding) (.receivableOpen outstanding)

def paymentFor (row : WithdrawalRow) (identity : RailIdentity) (freshId : Uuid) :
    OutboundPaymentRow :=
  { id := freshId, subject := .withdrawal, subjectId := row.id.uuid, dest := row.dest
    amountMicro := row.amountMicro, railFingerprint := identity.fingerprint }

/-- The row's payment, inserted if there is none. -/
def claimPayment (facts : SendFacts) (row : WithdrawalRow) (db : MoneyDb) :
    Except AppError (OutboundPaymentRow × MoneyDb) :=
  match db.outbound.paymentBySubject .withdrawal row.id.uuid with
  | some existing => .ok (existing, db)
  | none => do
    let payment := paymentFor row facts.identity facts.freshPayment
    let outbound ← (db.outbound.insertPayment payment).mapError .store
    pure (payment, { db with outbound := outbound })

def preparedAttempt (facts : SendFacts) (payment : Uuid) (number : Int) (replaces : Option Uuid)
    (signed : List UInt8 × String × Int) : OutboundAttemptRow :=
  { id := facts.freshAttempt, paymentId := payment, attemptNumber := number
    replacesAttemptId := replaces, signedTxBytes := signed.1, signature := signed.2.1
    lastValidBlockHeight := signed.2.2, landingState := .prepared
    leaseExpiresAt := some (facts.money.now + lease) }

def claimW2 (facts : SendFacts) (row : WithdrawalRow) (db : MoneyDb) :
    Except AppError (Sent × MoneyDb) := do
  let (payment, paid) ← claimPayment facts row db
  ensurePaymentMatches payment row facts.identity
  refuse (paid.outbound.attemptsFor payment.id ≠ [])
    (.store (.invariant "W2 already has a send attempt"))
  let signed ← facts.signed.mapError .store
  let inserted ← insertAttempt (preparedAttempt facts payment.id 1 none signed) paid
  facts.persisted.mapError .store
  let next := { row with combo := .w3 }
  let swapped ← inserted.casWithdrawal row.id .w2 next
  pure (⟨next, some .w3⟩, swapped.appendEvent facts.money row.id "send-claim" "machine" none)

/-- A live attempt that is prepared and whose lease has run out. -/
def expiredPrepared (now : Instant) (notPrepared noLease : String) (attempt : OutboundAttemptRow) :
    Except AppError Unit := do
  refuse (attempt.landingState ≠ .prepared) (.store (.invariant notPrepared))
  let leaseExpiresAt ← okOr attempt.leaseExpiresAt (.store (.invariant noLease))
  refuse (now < leaseExpiresAt) (.proposalConflict "send lease still held")

/-- The finalized height is known and the attempt's block hash is still valid. -/
def stillValid (height : Except StoreError Int) (attempt : OutboundAttemptRow) : Bool :=
  match height with
  | .ok h => h ≤ attempt.lastValidBlockHeight
  | .error _ => false

/-- A lookup that failed says nothing. -/
def presenceOf (facts : SendFacts) : SignaturePresence :=
  match facts.presence with
  | .ok p => p
  | .error _ => .unknown

def recoverSending (facts : SendFacts) (row : WithdrawalRow) (db : MoneyDb) :
    Except AppError (Sent × MoneyDb) := do
  let payment ← matchedPayment facts.identity row db
  let attempt ← requireLiveAttempt payment db
  expiredPrepared facts.money.now "sending withdrawal attempt is not prepared"
    "sending attempt has no lease" attempt
  if presenceOf facts = .present then do
    let saved ← saveAttempt { attempt with landingState := .broadcast } db
    let next := { row with combo := .w6, sentAt := some facts.money.now }
    let swapped ← finishCas facts.money row.combo next "lease-lookup-hit" saved
    pure (⟨next, none⟩, swapped)
  else if presenceOf facts = .absent ∧ stillValid facts.height attempt then
    -- the same bytes are broadcast again after this transaction
    pure (⟨row, some row.combo⟩, db)
  else do
    let saved ← saveAttempt { attempt with landingState := .unknown } db
    let next := { row with combo := .w7 }
    let swapped ← finishCas facts.money row.combo next "lease-lookup-unknown" saved
    pure (⟨next, none⟩, swapped)

def rebroadcastUnknown (facts : SendFacts) (row : WithdrawalRow) (db : MoneyDb) :
    Except AppError (Sent × MoneyDb) := do
  let payment ← matchedPayment facts.identity row db
  let attempt ← requireLiveAttempt payment db
  refuse (attempt.landingState ≠ .unknown) (.store (.invariant "W7 attempt is not unknown"))
  let height ← facts.height.mapError .store
  refuse (attempt.lastValidBlockHeight < height)
    (.proposalConflict "blockhash expired; archival proof is required")
  pure (⟨row, none⟩, db)

/-- A row that was sent before is answered from its attempts. -/
def alreadySent (facts : SendFacts) (row : WithdrawalRow) (db : MoneyDb) :
    Except AppError (Sent × MoneyDb) := do
  let payment ← matchedPayment facts.identity row db
  let expected : LandingState := if row.combo = .w6 then .broadcast else .finalized
  refuse (((db.outbound.attemptsFor payment.id).any fun a => a.landingState = expected) = false)
    (.store (.invariant "withdrawal state has no matching outbound attempt"))
  pure (⟨row, none⟩, db)

/-- `SendWithdraw::execute`, up to the broadcast. -/
def sendWithdraw (facts : SendFacts) (id : WithdrawalId) (user : UserId) (db : MoneyDb) :
    Except AppError (Sent × MoneyDb) := do
  let row ← lockedRow id user db
  if row.combo = .w6 ∨ row.combo = .w9 ∨ row.combo = .w10 then alreadySent facts row db
  else if row.combo = .w3 ∨ row.combo = .w8 then recoverSending facts row db
  else if row.combo = .w7 then rebroadcastUnknown facts row db
  else do
    refuse (row.combo ≠ .w2) .illegalTransition
    ensureSendAllowed facts.money row db
    claimW2 facts row db

/-- The transaction after a broadcast: a row that moved on meanwhile is left alone. -/
def casBroadcast (facts : SendFacts) (id : WithdrawalId) (user : UserId) (expected : Combo)
    (db : MoneyDb) : Except AppError (WithdrawalRow × MoneyDb) := do
  let row ← lockedRow id user db
  if row.combo ≠ expected then pure (row, db)
  else do
    let payment ← matchedPayment facts.identity row db
    let attempt ← requireLiveAttempt payment db
    refuse (attempt.landingState ≠ .prepared)
      (.store (.invariant "broadcast CAS attempt is not prepared"))
    let saved ← saveAttempt { attempt with landingState := .broadcast } db
    let next := { row with combo := .w6, sentAt := some (row.sentAt.getD facts.money.now) }
    let swapped ← finishCas facts.money expected next "broadcast" saved
    pure (next, swapped)

def replaceAttempt (facts : SendFacts) (row : WithdrawalRow) (payment : OutboundPaymentRow)
    (old : OutboundAttemptRow) (db : MoneyDb) : Except AppError (Sent × MoneyDb) := do
  let attempts := db.outbound.attemptsFor payment.id
  let failed ← saveAttempt { old with landingState := .definitiveFailed } db
  let signed ← facts.signed.mapError .store
  refuse (signed.2.1 ∈ attempts.map OutboundAttemptRow.signature)
    (.store (.invariant "replacement signature was reused"))
  let inserted ← insertAttempt
    (preparedAttempt facts payment.id (nextAttemptNumber attempts) (some old.id) signed) failed
  facts.persisted.mapError .store
  let next := { row with combo := .w8 }
  let swapped ← finishCas facts.money .w7 next "replace-expired" inserted
  pure (⟨next, some .w8⟩, swapped)

/-- `SendWithdraw::replace_expired`, up to the broadcast. -/
def replaceExpired (facts : SendFacts) (observations : List QuorumObservation) (id : WithdrawalId)
    (user : UserId) (db : MoneyDb) : Except AppError (Sent × MoneyDb) := do
  let row ← lockedRow id user db
  refuse (row.combo ≠ .w7) .illegalTransition
  let payment ← matchedPayment facts.identity row db
  let old ← requireLiveAttempt payment db
  refuse (old.landingState ≠ .unknown) (.store (.invariant "W7 attempt is not unknown"))
  let height ← facts.height.mapError .store
  refuse (height ≤ old.lastValidBlockHeight) (.proposalConflict "blockhash has not expired")
  if safeNonLandingVerdict old.lastValidBlockHeight observations facts.identity.rpcEndpoints =
      .definitiveFailed then
    replaceAttempt facts row payment old db
  else do
    let saved ← saveAttempt old db
    pure (⟨row, none⟩, saved)

variable {p : OutboundPaymentRow} {db db' : MoneyDb} {row : WithdrawalRow} {facts : SendFacts}
  {sent : Sent}

theorem matchedPayment_spec {identity : RailIdentity} (h : matchedPayment identity row db = .ok p) :
    db.outbound.paymentBySubject .withdrawal row.id.uuid = some p := by
  simp only [matchedPayment, storedPayment, ok_iff] at h
  obtain ⟨_, hp, _, -, rfl⟩ := h
  exact hp

variable {a : OutboundAttemptRow}

theorem requireLiveAttempt_spec (h : requireLiveAttempt p db = .ok a) :
    db.outbound.liveAttempt p.id = .ok (some a) := by
  simp only [requireLiveAttempt, ok_iff] at h
  obtain ⟨_, hlive, rfl⟩ := h
  exact hlive

/-- The live attempt of the row's payment, as an effect shows it. -/
theorem liveAt_of_required (hp : db.outbound.paymentBySubject .withdrawal row.id.uuid = some p)
    (h : requireLiveAttempt p db = .ok a) : LiveAt db.outbound row a :=
  ⟨p, hp, requireLiveAttempt_spec h⟩

theorem paymentId_of_required (h : requireLiveAttempt p db = .ok a) : p.id = a.paymentId :=
  (Outbound.mem_attemptRows.1 (liveAttempt_mem (requireLiveAttempt_spec h)).1).2.symm

theorem saveAttempt_spec (h : saveAttempt a db = .ok db') :
    ∃ o, db.outbound.saveAttempt a = .ok o ∧ db' = { db with outbound := o } := by
  simp only [saveAttempt, ok_iff] at h
  obtain ⟨o, ho, rfl⟩ := h
  exact ⟨o, ho, rfl⟩

theorem insertAttempt_spec (h : insertAttempt a db = .ok db') :
    ∃ o, db.outbound.insertAttempt a = .ok o ∧ db' = { db with outbound := o } := by
  simp only [insertAttempt, ok_iff] at h
  obtain ⟨o, ho, rfl⟩ := h
  exact ⟨o, ho, rfl⟩

theorem finishCas_spec {facts : MoneyFacts} {start : Combo} {next : WithdrawalRow} {kind : String}
    (h : finishCas facts start next kind db = .ok db') (hfound : db.withdrawal row.id = some row)
    (hid : next.id = row.id) :
    row.combo = start ∧ RowMoved db row next db' ∧ db'.ledger = db.ledger ∧
      db'.outbound = db.outbound := by
  simp only [finishCas, hid, ok_iff] at h
  obtain ⟨swapped, hswap, rfl⟩ := h
  obtain ⟨hcombo, rfl⟩ := casWithdrawal_spec hfound hswap
  exact ⟨hcombo, ⟨hfound, rfl⟩, rfl, rfl⟩

/-- The row and its payment, as a send transaction finds them. -/
structure Sending (db : MoneyDb) (row : WithdrawalRow) (p : OutboundPaymentRow) : Prop where
  found : db.withdrawal row.id = some row
  payment : db.outbound.paymentBySubject .withdrawal row.id.uuid = some p

/-- What a send or a reconciliation writes; `proof` is the withdrawal, the observations and
the endpoints of a proof of non-landing. -/
inductive SendStep (proof : Option (WithdrawalId × List QuorumObservation × List String))
    (db db' : MoneyDb) : Prop
  | same (nothing : db' = db)
  /-- An attempt of the row's payment is saved, and the row follows. -/
  | landed (facts : MoneyFacts) (row next : WithdrawalRow) (start : Combo) (kind : String)
      (p : OutboundPaymentRow) (a : OutboundAttemptRow) (state : LandingState) (saved : MoneyDb)
      (sending : Sending db row p) (owner : p.id = a.paymentId)
      (edge : Landing start state next.combo)
      (kept : next = { row with combo := next.combo, sentAt := next.sentAt })
      (save : saveAttempt { a with landingState := state } db = .ok saved)
      (cas : finishCas facts start next kind saved = .ok db') (event : kind ≠ "finance-approve")
  | noted (row : WithdrawalRow) (p : OutboundPaymentRow) (a : OutboundAttemptRow)
      (sending : Sending db row p) (owner : p.id = a.paymentId) (combo : row.combo = .w7)
      (state : a.landingState = .unknown) (save : saveAttempt a db = .ok db')
  | claimed (facts : SendFacts) (row : WithdrawalRow) (sent : Sent)
      (found : db.withdrawal row.id = some row) (claim : claimW2 facts row db = .ok (sent, db'))
  | replaced (facts : SendFacts) (row : WithdrawalRow) (p : OutboundPaymentRow)
      (old : OutboundAttemptRow) (sent : Sent) (sending : Sending db row p)
      (live : requireLiveAttempt p db = .ok old)
      (condemned : ∃ observations endpoints, proof = some (row.id, observations, endpoints) ∧
        safeNonLandingVerdict old.lastValidBlockHeight observations endpoints = .definitiveFailed)
      (replace : replaceAttempt facts row p old db = .ok (sent, db'))
  | failed (facts : MoneyFacts) (row : WithdrawalRow) (p : OutboundPaymentRow)
      (a : OutboundAttemptRow) (key kind : String) (released saved : MoneyDb)
      (sending : Sending db row p) (live : requireLiveAttempt p db = .ok a)
      (condemned : ∃ observations endpoints, proof = some (row.id, observations, endpoints) ∧
        safeNonLandingVerdict a.lastValidBlockHeight observations endpoints = .definitiveFailed)
      (combo : row.combo = .w7 ∨ row.combo = .w8)
      (release : db.applyRelease row.user row.amountMicro key = .ok released)
      (save : saveAttempt { a with landingState := .definitiveFailed } released = .ok saved)
      (cas : finishCas facts row.combo { row with releaseTx := some key, combo := .w15 } kind saved =
        .ok db') (event : kind ≠ "finance-approve")
  | settled (facts : MoneyFacts) (row : WithdrawalRow) (key kind : String) (booked : MoneyDb)
      (found : db.withdrawal row.id = some row)
      (settle : db.applySettle row.amountMicro key = .ok booked)
      (cas : finishCas facts .w9
        { row with settleTx := some key, settledAt := some facts.now, combo := .w10 } kind booked =
          .ok db') (event : kind ≠ "finance-approve")

variable {proof : Option (WithdrawalId × List QuorumObservation × List String)}

section Sends

variable (hfound : db.withdrawal row.id = some row)
include hfound

theorem recoverSending_step (hcombo : row.combo = .w3 ∨ row.combo = .w8)
    (h : recoverSending facts row db = .ok (sent, db')) : SendStep proof db db' := by
  simp only [recoverSending, bind_eq_ok] at h
  obtain ⟨payment, hp, attempt, hlive, _, -, h⟩ := h
  have hsending : Sending db row payment := ⟨hfound, matchedPayment_spec hp⟩
  have hid := paymentId_of_required hlive
  split_ifs at h
  · simp only [ok_iff] at h
    obtain ⟨saved, hsave, swapped, hcas, -, rfl⟩ := h
    refine .landed _ row _ _ _ payment _ _ saved hsending hid ?_ rfl hsave hcas (by decide)
    rcases hcombo with hc | hc <;> rw [hc]
    · exact .broadcast
    · exact .rebroadcast
  · exact .same (Prod.mk.inj (pure_eq_ok.1 h)).2.symm
  · simp only [ok_iff] at h
    obtain ⟨saved, hsave, swapped, hcas, -, rfl⟩ := h
    refine .landed _ row _ _ _ payment _ _ saved hsending hid ?_ rfl hsave hcas (by decide)
    rcases hcombo with hc | hc <;> rw [hc]
    · exact .lost
    · exact .lostAgain

end Sends

variable {id : WithdrawalId} {user : UserId}

theorem sendWithdraw_step (h : sendWithdraw facts id user db = .ok (sent, db')) :
    SendStep proof db db' := by
  simp only [sendWithdraw, bind_eq_ok] at h
  obtain ⟨row, hrow, h⟩ := h
  obtain ⟨hfound, -⟩ := lockedRow_spec hrow
  split_ifs at h with hsent hsending hunknown
  · simp only [alreadySent, ok_iff] at h
    obtain ⟨_, -, _, -, -, rfl⟩ := h
    exact .same rfl
  · exact recoverSending_step hfound hsending h
  · simp only [rebroadcastUnknown, ok_iff] at h
    obtain ⟨_, -, _, -, _, -, _, -, _, -, -, rfl⟩ := h
    exact .same rfl
  · simp only [bind_eq_ok] at h
    obtain ⟨_, -, _, -, h⟩ := h
    exact .claimed facts row sent hfound h

theorem casBroadcast_step {expected : Combo} {r : WithdrawalRow}
    (hexpected : expected = .w3 ∨ expected = .w8)
    (h : casBroadcast facts id user expected db = .ok (r, db')) : SendStep proof db db' := by
  simp only [casBroadcast, bind_eq_ok] at h
  obtain ⟨row, hrow, h⟩ := h
  obtain ⟨hfound, -⟩ := lockedRow_spec hrow
  split_ifs at h
  · exact .same (Prod.mk.inj (pure_eq_ok.1 h)).2.symm
  · simp only [ok_iff] at h
    obtain ⟨payment, hp, attempt, hlive, _, -, saved, hsave, swapped, hcas, -, rfl⟩ := h
    refine .landed _ row _ _ _ payment _ _ saved ⟨hfound, matchedPayment_spec hp⟩
      (paymentId_of_required hlive) ?_ rfl hsave hcas (by decide)
    rcases hexpected with rfl | rfl
    · exact .broadcast
    · exact .rebroadcast

theorem replaceExpired_step {observations : List QuorumObservation}
    (h : replaceExpired facts observations id user db = .ok (sent, db')) :
    SendStep (some (id, observations, facts.identity.rpcEndpoints)) db db' := by
  simp only [replaceExpired, not_not, ok_iff] at h
  obtain ⟨row, hrow, _, hcombo, payment, hp, old, hlive, _, hstate, _, -, _, -, h⟩ := h
  obtain ⟨hfound, rfl⟩ := lockedRow_spec hrow
  have hsending : Sending db row payment := ⟨hfound, matchedPayment_spec hp⟩
  split_ifs at h with hproof
  · exact .replaced facts row payment old sent hsending hlive ⟨_, _, rfl, hproof⟩ h
  · simp only [ok_iff] at h
    obtain ⟨saved, hsave, -, rfl⟩ := h
    exact .noted row payment old hsending (paymentId_of_required hlive) hcombo hstate hsave

section Effects

theorem claimW2_effect (hfound : db.withdrawal row.id = some row)
    (h : claimW2 facts row db = .ok (sent, db')) : Effect db db' := by
  simp only [claimW2, not_not, ok_iff] at h
  obtain ⟨⟨payment, paid⟩, hpaid, _, hmatch, _, hempty, signed, -, inserted, hins, _, -, swapped,
    hswap, -, rfl⟩ := h
  obtain ⟨o, ho, rfl⟩ := insertAttempt_spec hins
  simp only [ensurePaymentMatches, refuse_eq_ok, not_or, not_not] at hmatch
  have hkey : Outbound.subjectKey payment = (.withdrawal, row.id.uuid) :=
    Prod.ext hmatch.1 hmatch.2.1
  -- the payment was there or is new; either way nothing else changed
  have hclaim : paid.ledger = db.ledger ∧ paid.withdrawals = db.withdrawals ∧
      (paid.outbound = db.outbound ∧ payment ∈ db.outbound.payments ∨
        db.outbound.insertPayment payment = .ok paid.outbound) := by
    unfold claimPayment at hpaid
    split at hpaid
    · rename_i existing hexisting
      cases hpaid
      exact ⟨rfl, rfl, Or.inl ⟨rfl, mem_of_find hexisting⟩⟩
    · simp only [ok_iff] at hpaid
      obtain ⟨o', ho', rfl, rfl⟩ := hpaid
      exact ⟨rfl, rfl, Or.inr ho'⟩
  obtain ⟨hl, hw, hpayment⟩ := hclaim
  have hfound' : ({ paid with outbound := o } : MoneyDb).withdrawal row.id = some row := by
    rwa [MoneyDb.withdrawal, hw]
  obtain ⟨hcombo, rfl⟩ := casWithdrawal_spec hfound' hswap
  refine .claimed row { row with combo := .w3 }
    (preparedAttempt facts payment.id 1 none signed) ⟨hfound, ?_⟩ hcombo rfl ⟨rfl, rfl⟩
    ⟨⟨paid.outbound, payment, ho, rfl, hempty, hkey, hpayment⟩⟩ hl
  rw [← hw]
  rfl

theorem replaceAttempt_effect {old : OutboundAttemptRow} (hs : Sending db row p)
    (hlive : requireLiveAttempt p db = .ok old)
    (h : replaceAttempt facts row p old db = .ok (sent, db')) : Effect db db' := by
  simp only [replaceAttempt, ok_iff] at h
  obtain ⟨failed, hfailed, signed, -, _, -, inserted, hins, _, -, swapped, hcas, -, rfl⟩ := h
  obtain ⟨o, ho, rfl⟩ := saveAttempt_spec hfailed
  obtain ⟨o', ho', rfl⟩ := insertAttempt_spec hins
  obtain ⟨hcombo, hmoved, hl, hout⟩ := finishCas_spec hcas hs.found rfl
  have hid := paymentId_of_required hlive
  have hinserted : o.insertAttempt _ = .ok swapped.outbound :=
    ho'.trans (congrArg Except.ok hout.symm)
  refine .replaced row { row with combo := .w8 } old _ o ⟨hs.found, hmoved.withdrawals⟩ hcombo rfl
    ⟨rfl, rfl⟩ (liveAt_of_required hs.payment hlive) ⟨⟨p, hs.payment, hid⟩, ho⟩ ?_ hinserted hl
  exact hid

theorem SendStep.effect (h : SendStep proof db db') : Effect db db' := by
  cases h with
  | same nothing => exact nothing ▸ .quiet (Frame.refl _) rfl rfl
  | landed facts row next start kind p a state saved hs owner edge kept save cas =>
    obtain ⟨o, ho, rfl⟩ := saveAttempt_spec save
    obtain ⟨hcombo, hmoved, hl, ho'⟩ := finishCas_spec cas hs.found (by rw [kept])
    refine .landed row next { a with landingState := state } ⟨hs.found, hmoved.withdrawals⟩
      (hcombo ▸ edge) ?_ ⟨⟨p, hs.payment, owner⟩, ho.trans (congrArg Except.ok ho'.symm)⟩ hl
    rw [kept]
    exact ⟨rfl, rfl⟩
  | noted row p a hs owner combo state save =>
    obtain ⟨o, ho, rfl⟩ := saveAttempt_spec save
    exact .noted row a hs.found combo state ⟨⟨p, hs.payment, owner⟩, ho⟩ rfl rfl
  | claimed facts row sent found claim => exact claimW2_effect found claim
  | replaced facts row p old sent hs live _ replace => exact replaceAttempt_effect hs live replace
  | failed facts row p a key kind released saved hs live _ combo release save cas =>
    simp only [MoneyDb.applyRelease, ok_iff] at release
    obtain ⟨ledger, hledger, rfl⟩ := release
    obtain ⟨o, ho, rfl⟩ := saveAttempt_spec save
    obtain ⟨-, hmoved, hl, hout⟩ := finishCas_spec cas hs.found rfl
    have hid := paymentId_of_required live
    refine .failed row _ a ⟨hs.found, hmoved.withdrawals⟩ combo rfl
      (liveAt_of_required hs.payment live)
      ⟨⟨p, hs.payment, hid⟩, ho.trans (congrArg Except.ok hout.symm)⟩ ⟨⟨key, rfl, ?_⟩, rfl⟩
    rw [hl]
    exact Ledger.twoLeg_spec hledger
  | settled facts row key kind booked found settle cas =>
    simp only [MoneyDb.applySettle, ok_iff] at settle
    obtain ⟨ledger, hledger, rfl⟩ := settle
    obtain ⟨hcombo, hmoved, hl, hout⟩ := finishCas_spec cas found rfl
    refine .settled row _ key ⟨found, hmoved.withdrawals⟩ hcombo rfl ⟨rfl, rfl⟩ ?_ hout
    rw [hl]
    exact Ledger.twoLeg_spec hledger

end Effects

end Opinions.Money
