import Opinions.Money.Progress
import Opinions.Rail.Solana
import Opinions.Deposit.Suspense

/-! Replacing a send that is proved not to have landed
(`application/src/money/withdraw_send.rs`, `application/src/credit_deposit.rs`), over the
rail. The use case signs a second transaction for the same payment and hands it to the
rail; the rail takes it exactly when it keeps no bytes for the payment yet. -/

namespace Opinions.Rail

open Lib.Result Lib.Rows Lib.Run Model Store Trade Money Deposit

structure World (σ : Type) where
  db : σ
  rails : SolanaRails

/-- The rail is handed what was signed for the payment. -/
def persistFor (rails : SolanaRails) (payment : Option OutboundPaymentRow)
    (signed : Except StoreError (List UInt8 × String × Int)) : Except StoreError SolanaRails :=
  match payment, signed with
  | some p, .ok s => rails.persistSigned p.id s.1 s.2.1
  | _, _ => .ok rails

/-- `SendWithdraw::replace_expired` with its broadcast. -/
def replaceExpiredOver (rpc : Rpc) (facts : SendFacts) (observations : List QuorumObservation)
    (id : WithdrawalId) (user : UserId) (w : World MoneyDb) :
    Except AppError (WithdrawalRow × Option (List UInt8) × World MoneyDb) := do
  let payment := w.db.outbound.paymentBySubject .withdrawal id.uuid
  let answer := persistFor w.rails payment facts.signed
  let (sent, db) ← replaceExpired { facts with persisted := answer.map fun _ => () } observations
    id user w.db
  match sent.follow, payment with
  | some expected, some p => do
    let rails ← answer.mapError .store
    let bytes ← (rails.broadcast facts.identity rpc p.id).mapError .store
    let (row, db) ← casBroadcast facts id user expected db
    pure (row, some bytes, ⟨db, rails⟩)
  | _, _ => pure (sent.row, none, ⟨db, w.rails⟩)

/-- `replace_expired_refund` with its broadcast. -/
def replaceExpiredRefundOver (rpc : Rpc) (facts : RefundFacts) (identity : RailIdentity)
    (observations : List QuorumObservation) (sig : String) (w : World DepositDb) :
    Except AppError (RefundReceipt × Option (List UInt8) × World DepositDb) := do
  let payment := (w.db.depositMachineBySig sig).bind fun row => w.db.refundPaymentForDeposit row.id
  let answer := persistFor w.rails payment facts.signed
  let (sent, db) ← replaceExpiredRefund { facts with persisted := answer.map fun _ => () } identity
    observations sig w.db
  match sent.follow, payment with
  | true, some p => do
    let rails ← answer.mapError .store
    let bytes ← (rails.broadcast identity rpc p.id).mapError .store
    let (_, db) ← markRefundBroadcast facts.seen sig db
    pure (sent.receipt, some bytes, ⟨db, rails⟩)
  | _, _ => pure (sent.receipt, none, ⟨db, w.rails⟩)

/-- The call broadcast the new bytes, and the old attempt has failed for good. -/
def WithdrawalReplaced (rpc : Rpc) (facts : SendFacts) (observations : List QuorumObservation)
    (row : WithdrawalRow) (old : OutboundAttemptRow) (bytes : List UInt8) (w : World MoneyDb) :
    Prop :=
  ∃ sent w', replaceExpiredOver rpc facts observations row.id row.user w =
      .ok (sent, some bytes, w') ∧ sent.combo = .w6 ∧
    { old with landingState := .definitiveFailed } ∈ w'.db.outbound.attempts

def RefundReplaced (rpc : Rpc) (facts : RefundFacts) (identity : RailIdentity)
    (observations : List QuorumObservation) (sig : String) (old : OutboundAttemptRow)
    (bytes : List UInt8) (w : World DepositDb) : Prop :=
  ∃ receipt w', replaceExpiredRefundOver rpc facts identity observations sig w =
      .ok (receipt, some bytes, w') ∧
    { old with landingState := .definitiveFailed } ∈ w'.db.outbound.attempts

/-! ### Withdrawals -/

/-- A replacement is called for: the block hash of the attempt has expired, the pinned
endpoints prove that it did not land, the signer returns a fresh transaction, and the
endpoints accept that. -/
structure Expired (o : Outbound) (identity : RailIdentity) (observations : List QuorumObservation)
    (height : Except StoreError Int) (answer : Except StoreError (List UInt8 × String × Int))
    (freshAttempt : Uuid) (rpc : Rpc) (old : OutboundAttemptRow)
    (signed : List UInt8 × String × Int) : Prop where
  expired : ∃ h, height = .ok h ∧ old.lastValidBlockHeight < h
  proved : safeNonLandingVerdict old.lastValidBlockHeight observations identity.rpcEndpoints =
    .definitiveFailed
  signer : answer = .ok signed
  signs : o.Signs signed
  attempt : freshAttempt ∉ o.attempts.map OutboundAttemptRow.id
  accepts : ∀ endpoint, rpc endpoint signed.1 = .ok (some signed.2.1)

variable {observations : List QuorumObservation} {identity : RailIdentity} {rpc : Rpc}
  {signed : List UInt8 × String × Int} {old : OutboundAttemptRow} {older : List OutboundAttemptRow}
  {payment : OutboundPaymentRow} {o : Outbound}

/-- A definitive proof names the endpoints it is from. -/
theorem head_of_proved {lastValid : Int} {endpoints : List String}
    (h : safeNonLandingVerdict lastValid observations endpoints = .definitiveFailed) :
    ∃ endpoint, endpoints.head? = some endpoint := by
  cases endpoints with
  | cons endpoint => exact ⟨endpoint, rfl⟩
  | nil =>
    simp only [safeNonLandingVerdict] at h
    split_ifs at h with hbad
    push Not at hbad
    obtain ⟨-, hlength, ⟨hsub, -⟩, -⟩ := hbad
    rw [List.subset_nil.1 hsub] at hlength
    contradiction

variable {rails : SolanaRails} {answer : Except StoreError (List UInt8 × String × Int)}
  {db' : DepositDb} {sig : String}

theorem broadcast_hold {payment : Uuid}
    (hhead : ∃ endpoint, identity.rpcEndpoints.head? = some endpoint)
    (haccepts : ∀ endpoint, rpc endpoint signed.1 = .ok (some signed.2.1)) :
    (rails.hold payment (signed.1, signed.2.1)).broadcast identity rpc payment =
      .ok signed.1 := by
  obtain ⟨endpoint, hhead⟩ := hhead
  simp [SolanaRails.broadcast, hhead, haccepts, pure, Except.pure]

section Withdrawals

variable {db : MoneyDb} {row : WithdrawalRow} (hfound : db.withdrawal row.id = some row)
include hfound

theorem exists_unknown (ht : Tracked db) (hcombo : row.combo = .w7) :
    ∃ payment older old, db.outbound.paymentBySubject .withdrawal row.id.uuid = some payment ∧
      db.outbound.EndsIn payment.id older old ∧ old.landingState = .unknown := by
  have hcarried : carried row.combo.send = some .unknown := by
    rw [hcombo]
    rfl
  obtain ⟨older, old, hrows, hstate, hfailed⟩ := (ht.lastAt hfound hcarried).last
  cases hp : db.outbound.paymentBySubject .withdrawal row.id.uuid with
  | none =>
    rw [Outbound.sends, hp] at hrows
    simp at hrows
  | some payment =>
    rw [Outbound.sends_of_payment hp] at hrows
    exact ⟨payment, older, old, rfl, ⟨hrows, hfailed⟩, hstate⟩

theorem lockedRow_found : lockedRow row.id row.user db = .ok row := by
  simp [lockedRow, hfound, pure, Except.pure]

theorem finishCas_ok (facts : MoneyFacts) (next : WithdrawalRow) (kind : String)
    (hid : next.id = row.id) (hnext : MoneyDb.written next row = next) :
    ∃ db', finishCas facts row.combo next kind db = .ok db' ∧ db'.outbound = db.outbound ∧
      db'.withdrawal row.id = some next := by
  have hcas : db.casWithdrawal row.id row.combo next = .ok (db.writeRow row.id next) := by
    simp [MoneyDb.casWithdrawal, hfound, pure, Except.pure]
  refine ⟨(db.writeRow row.id next).appendEvent facts next.id kind "machine" none, ?_, rfl, ?_⟩
  · rw [finishCas, hid, hcas, ok_bind]
    rfl
  · have hwritten : find WithdrawalRow.id row.id
        (update WithdrawalRow.id row.id (MoneyDb.written next) db.withdrawals) =
        (db.withdrawal row.id).map (MoneyDb.written next) :=
      find_update_self (MoneyDb.written_id next)
    rwa [hfound, Option.map_some, hnext] at hwritten

variable (facts : SendFacts)
  (hp : db.outbound.paymentBySubject .withdrawal row.id.uuid = some payment)
  (hmatch : ensurePaymentMatches payment row facts.identity = .ok ())
include hp hmatch

omit hfound in
theorem matchedPayment_ok : matchedPayment facts.identity row db = .ok payment := by
  simp [matchedPayment, storedPayment, hp, hmatch, pure, Except.pure]

theorem replaceExpired_ok (hv : db.outbound.Valid) (hcombo : row.combo = .w7)
    (hends : db.outbound.EndsIn payment.id older old) (hstate : old.landingState = .unknown)
    (hexpired : Expired db.outbound facts.identity observations facts.height facts.signed
      facts.freshAttempt rpc old signed)
    (hnumber : (db.outbound.attemptsFor payment.id).length < 2147483647)
    (hpersisted : facts.persisted = .ok ()) :
    ∃ db', replaceExpired facts observations row.id row.user db =
        .ok (⟨{ row with combo := .w8 }, some .w8⟩, db') ∧
      db'.withdrawal row.id = some { row with combo := .w8 } ∧ db'.outbound.Valid ∧
      db'.outbound.payments = db.outbound.payments ∧
      db'.outbound.EndsIn payment.id (older ++ [{ old with landingState := .definitiveFailed }])
        (preparedAttempt facts payment.id (nextAttemptNumber (db.outbound.attemptsFor payment.id))
          (some old.id) signed) := by
  obtain ⟨h, hheight, hlt⟩ := hexpired.expired
  obtain ⟨mid, o', hsave, hinsert, hv', hpayments, hends'⟩ :=
    hends.replace hv hstate hnumber hexpired.signs hexpired.attempt (facts.money.now + lease)
  have hfound' : ({ db with outbound := o' } : MoneyDb).withdrawal row.id = some row := hfound
  obtain ⟨db', hcas, hout, hrow⟩ := finishCas_ok hfound' facts.money { row with combo := .w8 }
    "replace-expired" rfl rfl
  rw [hcombo] at hcas
  have hreplace : replaceAttempt facts row payment old db =
      .ok (⟨{ row with combo := .w8 }, some .w8⟩, db') := by
    simp only [replaceAttempt, saveAttempt, insertAttempt, bind_eq_ok, refuse_eq_ok, mapError_eq_ok,
      pure_eq_ok]
    exact ⟨_, ⟨mid, hsave, rfl⟩, signed, hexpired.signer, (),
      hexpired.signs.notMem_attemptsFor hv payment.id, _, ⟨o', hinsert, rfl⟩, (), hpersisted, db',
      hcas, rfl⟩
  refine ⟨db', ?_, hrow, hout ▸ hv', hout ▸ hpayments, hout ▸ hends'⟩
  simp only [replaceExpired, requireLiveAttempt, bind_eq_ok, refuse_eq_ok, okOr_eq_ok,
    mapError_eq_ok]
  refine ⟨row, lockedRow_found hfound, (), not_not.2 hcombo, payment,
    matchedPayment_ok facts hp hmatch, old,
    ⟨some old, hends.liveAttempt hv (by rw [hstate]; rfl), rfl⟩, (), not_not.2 hstate, h, hheight,
    (), not_le.2 hlt, ?_⟩
  rwa [if_pos hexpired.proved]

theorem casBroadcast_ok (hv : db.outbound.Valid) (hcombo : row.combo = .w8)
    (hends : db.outbound.EndsIn payment.id older old) (hstate : old.landingState = .prepared) :
    ∃ next db', casBroadcast facts row.id row.user .w8 db = .ok (next, db') ∧
      next.combo = .w6 ∧
      db'.outbound.EndsIn payment.id older { old with landingState := .broadcast } := by
  have hedge : legalAttemptEdge old.landingState .broadcast = true := by
    rw [hstate]
    rfl
  obtain ⟨o', hsave, -, -, hends', -, -⟩ := hends.save hv hedge
  have hfound' : ({ db with outbound := o' } : MoneyDb).withdrawal row.id = some row := hfound
  obtain ⟨db', hcas, hout, -⟩ := finishCas_ok hfound' facts.money
    { row with combo := .w6, sentAt := some (row.sentAt.getD facts.money.now) } "broadcast" rfl rfl
  rw [hcombo] at hcas
  refine ⟨{ row with combo := .w6, sentAt := some (row.sentAt.getD facts.money.now) }, db', ?_, rfl,
    hout ▸ hends'⟩
  simp only [casBroadcast, requireLiveAttempt, saveAttempt, bind_eq_ok]
  refine ⟨row, lockedRow_found hfound, ?_⟩
  rw [if_neg (not_not.2 hcombo)]
  simp only [bind_eq_ok, refuse_eq_ok, mapError_eq_ok, okOr_eq_ok, pure_eq_ok]
  exact ⟨payment, matchedPayment_ok facts hp hmatch, old,
    ⟨some old, hends.liveAttempt hv (by rw [hstate]; rfl), rfl⟩, (), not_not.2 hstate, _,
    ⟨o', hsave, rfl⟩, db', hcas, rfl⟩

end Withdrawals

/-- What a replacement that went through needed. -/
theorem replaceExpired_needs {facts : SendFacts} {row : WithdrawalRow} {db db' : MoneyDb}
    {sent : Sent} (hv : db.outbound.Valid) (hfound : db.withdrawal row.id = some row)
    (hp : db.outbound.paymentBySubject .withdrawal row.id.uuid = some payment)
    (hlive : db.outbound.liveAttempt payment.id = .ok (some old))
    (hproved : safeNonLandingVerdict old.lastValidBlockHeight observations
      facts.identity.rpcEndpoints = .definitiveFailed)
    (h : replaceExpired facts observations row.id row.user db = .ok (sent, db')) :
    ensurePaymentMatches payment row facts.identity = .ok () ∧
      (db.outbound.attemptsFor payment.id).length < 2147483647 ∧ facts.persisted = .ok () := by
  simp only [replaceExpired, matchedPayment, storedPayment, requireLiveAttempt,
    lockedRow_found hfound, Except.ok.injEq, ok_iff] at h
  obtain ⟨_, rfl, _, -, _, ⟨_, hp', _, hmatch, rfl⟩, _, ⟨_, hlive', rfl⟩, _, -, _, -, _, -, h⟩ := h
  obtain rfl := Option.mem_unique hp hp'
  obtain rfl := Option.some.inj (Except.ok.inj (hlive.symm.trans hlive'))
  rw [if_pos hproved] at h
  simp only [replaceAttempt, saveAttempt, insertAttempt, ok_iff] at h
  obtain ⟨_, ⟨mid, hsave, rfl⟩, signed, -, _, -, _, ⟨o', hinsert, rfl⟩, _, hpersisted, -⟩ := h
  exact ⟨hmatch, Outbound.length_lt_of_replaced hv hsave hinsert rfl, hpersisted⟩

theorem persistFor_eq {p : Option OutboundPaymentRow} (hp : p = some payment)
    (hanswer : answer = .ok signed) :
    persistFor rails p answer = rails.persistSigned payment.id signed.1 signed.2.1 := by
  rw [hp, hanswer]
  rfl

theorem map_unit_eq_ok {ε α : Type} {x : Except ε α} :
    (x.map fun _ => ()) = .ok () ↔ ∃ a, x = .ok a := by
  cases x <;> simp [Except.map]

/-- The replacement of a withdrawal's send goes through exactly when the payment matches,
its number fits, and the rail keeps no other bytes for it. -/
theorem replaceExpiredOver_iff {db : MoneyDb} {row : WithdrawalRow} {facts : SendFacts}
    (hv : db.outbound.Valid) (hfound : db.withdrawal row.id = some row) (hcombo : row.combo = .w7)
    (hp : db.outbound.paymentBySubject .withdrawal row.id.uuid = some payment)
    (hends : db.outbound.EndsIn payment.id older old) (hstate : old.landingState = .unknown)
    (hexpired : Expired db.outbound facts.identity observations facts.height facts.signed
      facts.freshAttempt rpc old signed) (rails : SolanaRails) :
    WithdrawalReplaced rpc facts observations row old signed.1 ⟨db, rails⟩ ↔
      ensurePaymentMatches payment row facts.identity = .ok () ∧
        (db.outbound.attemptsFor payment.id).length < 2147483647 ∧
        rails.Free payment.id (signed.1, signed.2.1) := by
  have hpersist : persistFor rails (db.outbound.paymentBySubject .withdrawal row.id.uuid)
      facts.signed = rails.persistSigned payment.id signed.1 signed.2.1 :=
    persistFor_eq hp hexpired.signer
  constructor
  · rintro ⟨sent, w', h, -, -⟩
    simp only [replaceExpiredOver, bind_eq_ok, hpersist] at h
    obtain ⟨⟨sent', db'⟩, hreplace, -⟩ := h
    obtain ⟨hmatch, hnumber, hanswer⟩ := replaceExpired_needs hv hfound hp
      (hends.liveAttempt hv (by rw [hstate]; rfl)) (by exact hexpired.proved) hreplace
    obtain ⟨rails', hrails⟩ := map_unit_eq_ok.1 hanswer
    exact ⟨hmatch, hnumber, (SolanaRails.persistSigned_eq_ok.1 hrails).1⟩
  · rintro ⟨hmatch, hnumber, hfree⟩
    have hrails := SolanaRails.persistSigned_eq_ok.2 ⟨hfree, rfl⟩
    obtain ⟨db', hreplace, hfound', hv', hpayments, hends'⟩ :=
      replaceExpired_ok hfound { facts with persisted := .ok () } hp hmatch hv hcombo hends hstate
        hexpired hnumber rfl
    have hp' : db'.outbound.paymentBySubject .withdrawal row.id.uuid = some payment := by
      rwa [Outbound.paymentBySubject, hpayments]
    have hfound₈ : db'.withdrawal ({ row with combo := .w8 } : WithdrawalRow).id =
        some { row with combo := .w8 } := hfound'
    obtain ⟨next, db'', hcas, hcombo', hends''⟩ :=
      casBroadcast_ok hfound₈ facts hp' hmatch hv' rfl hends' rfl
    refine ⟨next, ⟨db'', rails.hold payment.id (signed.1, signed.2.1)⟩, ?_, hcombo', ?_⟩
    · simp only [replaceExpiredOver, bind_eq_ok, hpersist, hrails]
      refine ⟨_, hreplace, ?_⟩
      rw [hp]
      simp only [bind_eq_ok, mapError_eq_ok, pure_eq_ok]
      exact ⟨_, rfl, signed.1, broadcast_hold (head_of_proved hexpired.proved) hexpired.accepts, _,
        hcas, rfl⟩
    · refine (Outbound.mem_attemptRows.1 (?_ : _ ∈ db''.outbound.attemptRows payment.id)).1
      rw [hends''.rows]
      simp

/-! ### Refunds -/

theorem chained_of_writes {o' : Outbound} (h : Relation.ReflTransGen OutboundWrite o o')
    (hc : o.Chained) : o'.Chained := by
  induction h with
  | refl => exact hc
  | tail _ hwrite ih =>
    cases hwrite with
    | payment p write => exact ih.insertPayment write
    | attempt a write => exact ih.insertAttempt write
    | landing a write => exact ih.saveAttempt write

theorem chained_of_effect {db : DepositDb} (h : Deposit.Effect db db') (hc : db.outbound.Chained) :
    db'.outbound.Chained := by
  cases h with
  | quiet _ _ _ hout | stayed _ _ _ _ _ _ hout | refunded _ _ _ _ _ hout =>
    exact chained_of_writes hout hc
  | observed _ _ _ _ _ _ _ _ _ hout | admitted _ _ _ _ _ _ _ hout => exact hout ▸ hc

theorem chained_run (hash : String → String) (cmds : List Deposit.Command) :
    (run (DepositDb.step hash) DepositDb.empty cmds).outbound.Chained := by
  refine (run_preserves (P := fun db => Deposit.Conserved db ∧ db.outbound.Chained)
    (fun _ _ _ _ h hstep => ?_) ⟨Deposit.conserved_empty, Outbound.chained_empty⟩).2
  have heffect := DepositDb.step_effect h.1.ids hstep
  exact ⟨heffect.conserved h.1, chained_of_effect heffect h.2⟩

section Refunds

variable {db : DepositDb} {row : DepositMachineRow} (hrow : db.depositMachineBySig sig = some row)
  (hp : db.refundPaymentForDeposit row.id = some payment)
include hrow

theorem storedRefund_ok : storedRefund sig db = .ok row := by
  simp [storedRefund, hrow]

theorem markRefundBroadcast_ok (hchecked : checkedRefundPayment row db = .ok payment)
    (hv : db.outbound.Valid) (hends : db.outbound.EndsIn payment.id older old)
    (hstate : old.landingState = .prepared) :
    ∃ db', markRefundBroadcast .refundSending sig db = .ok ((), db') ∧
      db'.outbound.EndsIn payment.id older { old with landingState := .broadcast } := by
  have hedge : legalAttemptEdge old.landingState .broadcast = true := by
    rw [hstate]
    rfl
  obtain ⟨o', hsave, -, -, hends', -, -⟩ := hends.save hv hedge
  refine ⟨{ db with outbound := o' }, ?_, hends'⟩
  simp only [markRefundBroadcast, liveRefundAttempt, bind_eq_ok, refuse_eq_ok, mapError_eq_ok,
    okOr_eq_ok]
  refine ⟨row, storedRefund_ok hrow, (), not_not.2 rfl, payment, hchecked, old,
    ⟨some old, hends.liveAttempt hv (by rw [hstate]; rfl), rfl⟩, ?_⟩
  rw [if_neg (by rw [hstate]; decide)]
  simp only [saveRefundAttempt, bind_eq_ok, refuse_eq_ok, mapError_eq_ok, pure_eq_ok]
  exact ⟨(), by simp [hstate], _, ⟨o', hsave, rfl⟩, rfl⟩

variable (facts : RefundFacts)

theorem replaceExpiredRefund_ok (hseen : facts.seen = .refundSending)
    (hchecked : checkedRefundPayment row db = .ok payment)
    (hprint : payment.railFingerprint = identity.fingerprint) (hv : db.outbound.Valid)
    (hends : db.outbound.EndsIn payment.id older old) (hstate : old.landingState = .unknown)
    (hexpired : Expired db.outbound identity observations facts.height facts.signed
      facts.freshAttempt rpc old signed)
    (hnumber : (db.outbound.attemptsFor payment.id).length < 2147483647)
    (hpersisted : facts.persisted = .ok ()) :
    ∃ o', replaceExpiredRefund facts identity observations sig db =
        .ok (⟨refundReceipt row payment true, true⟩, { db with outbound := o' }) ∧
      o'.Valid ∧ o'.payments = db.outbound.payments ∧
      o'.EndsIn payment.id (older ++ [{ old with landingState := .definitiveFailed }])
        (preparedRefund facts payment.id (nextAttemptNumber (db.outbound.attemptsFor payment.id))
          (some old.id) signed) := by
  obtain ⟨h, hheight, hlt⟩ := hexpired.expired
  obtain ⟨mid, o', hsave, hinsert, hv', hpayments, hends'⟩ :=
    hends.replace hv hstate hnumber hexpired.signs hexpired.attempt (facts.now + lease)
  refine ⟨o', ?_, hv', hpayments, hends'⟩
  simp only [replaceExpiredRefund, replaceRefundAttempt, liveRefundAttempt, saveRefundAttempt,
    insertRefundAttempt, bind_eq_ok, refuse_eq_ok, okOr_eq_ok, mapError_eq_ok, pure_eq_ok]
  exact ⟨row, storedRefund_ok hrow, (), not_not.2 hseen, payment, hchecked, (), not_not.2 hprint,
    old, ⟨some old, hends.liveAttempt hv (by rw [hstate]; rfl), rfl⟩, (), not_not.2 hstate, h,
    hheight, (), not_le.2 hlt, (), not_not.2 hexpired.proved, _, ⟨mid, hsave, rfl⟩, signed,
    hexpired.signer, (), hexpired.signs.notMem_attemptsFor hv payment.id, _, ⟨o', hinsert, rfl⟩, (), hpersisted, rfl⟩

include hp in
theorem replaceExpiredRefund_needs {sent : RefundSent} (hv : db.outbound.Valid)
    (h : replaceExpiredRefund facts identity observations sig db = .ok (sent, db')) :
    checkedRefundPayment row db = .ok payment ∧ payment.railFingerprint = identity.fingerprint ∧
      (db.outbound.attemptsFor payment.id).length < 2147483647 ∧ facts.persisted = .ok () := by
  simp only [replaceExpiredRefund, replaceRefundAttempt, liveRefundAttempt, saveRefundAttempt,
    insertRefundAttempt, storedRefund_ok hrow, Except.ok.injEq, ok_iff] at h
  obtain ⟨_, rfl, _, -, stored, hchecked, _, hprint, _, -, _, -, _, -, _, -, _, -, _,
    ⟨mid, hsave, rfl⟩, signed, -, _, -, _, ⟨o', hinsert, rfl⟩, _, hpersisted, -⟩ := h
  have hstored : db.refundPaymentForDeposit row.id = some stored := by
    simp only [checkedRefundPayment, ok_iff] at hchecked
    obtain ⟨_, hstored, _, -, rfl⟩ := hchecked
    exact hstored
  obtain rfl := Option.mem_unique hp hstored
  exact ⟨hchecked, not_not.1 hprint, Outbound.length_lt_of_replaced hv hsave hinsert rfl,
    hpersisted⟩

end Refunds

/-- The replacement of a refund's send goes through exactly when the payment matches, its
number fits, and the rail keeps no other bytes for it. -/
theorem replaceExpiredRefundOver_iff {db : DepositDb} {row : DepositMachineRow}
    {facts : RefundFacts} (hv : db.outbound.Valid) (hrow : db.depositMachineBySig sig = some row)
    (hseen : facts.seen = .refundSending) (hp : db.refundPaymentForDeposit row.id = some payment)
    (hends : db.outbound.EndsIn payment.id older old) (hstate : old.landingState = .unknown)
    (hexpired : Expired db.outbound identity observations facts.height facts.signed
      facts.freshAttempt rpc old signed) (rails : SolanaRails) :
    RefundReplaced rpc facts identity observations sig old signed.1 ⟨db, rails⟩ ↔
      checkedRefundPayment row db = .ok payment ∧ payment.railFingerprint = identity.fingerprint ∧
        (db.outbound.attemptsFor payment.id).length < 2147483647 ∧
        rails.Free payment.id (signed.1, signed.2.1) := by
  have hp' : ((db.depositMachineBySig sig).bind fun row => db.refundPaymentForDeposit row.id) =
      some payment := by
    rwa [hrow, Option.bind_some]
  have hpersist : persistFor rails (some payment) facts.signed =
      rails.persistSigned payment.id signed.1 signed.2.1 := persistFor_eq rfl hexpired.signer
  constructor
  · rintro ⟨receipt, w', h, -⟩
    simp only [replaceExpiredRefundOver, bind_eq_ok, hp', hpersist] at h
    obtain ⟨⟨sent', db'⟩, hreplace, -⟩ := h
    obtain ⟨hchecked, hprint, hnumber, hanswer⟩ :=
      replaceExpiredRefund_needs hrow hp _ hv hreplace
    obtain ⟨rails', hrails⟩ := map_unit_eq_ok.1 hanswer
    exact ⟨hchecked, hprint, hnumber, (SolanaRails.persistSigned_eq_ok.1 hrails).1⟩
  · rintro ⟨hchecked, hprint, hnumber, hfree⟩
    have hrails := SolanaRails.persistSigned_eq_ok.2 ⟨hfree, rfl⟩
    obtain ⟨o', hreplace, hv', hpayments, hends'⟩ :=
      replaceExpiredRefund_ok hrow { facts with persisted := .ok () } hseen hchecked hprint hv hends
        hstate hexpired hnumber rfl
    have hchecked' : checkedRefundPayment row { db with outbound := o' } = .ok payment := by
      rw [← hchecked]
      simp only [checkedRefundPayment, DepositDb.refundPaymentForDeposit,
        Outbound.paymentBySubject, hpayments]
    obtain ⟨db'', hmark, hends''⟩ :=
      markRefundBroadcast_ok (by exact hrow) hchecked' hv' hends' rfl
    refine ⟨refundReceipt row payment true,
      ⟨db'', rails.hold payment.id (signed.1, signed.2.1)⟩, ?_, ?_⟩
    · simp only [replaceExpiredRefundOver, bind_eq_ok, hp', hpersist, hrails, hseen]
      rw [hseen] at hreplace
      refine ⟨_, hreplace, ?_⟩
      simp only [bind_eq_ok, mapError_eq_ok, pure_eq_ok]
      exact ⟨_, rfl, signed.1, broadcast_hold (head_of_proved hexpired.proved) hexpired.accepts, _,
        hmark, rfl⟩
    · refine (Outbound.mem_attemptRows.1 (?_ : _ ∈ db''.outbound.attemptRows payment.id)).1
      rw [hends''.rows]
      simp

/-! ### In every reachable state -/

theorem endsIn_of_live (hc : o.Chained) {payment : Uuid}
    (hlive : o.liveAttempt payment = .ok (some old)) : ∃ older, o.EndsIn payment older old := by
  obtain ⟨hmem, -⟩ := liveAttempt_mem hlive
  rcases List.eq_nil_or_concat' (o.attemptRows payment) with hnil | ⟨older, last, hrows⟩
  · rw [hnil] at hmem
    contradiction
  · have hends := hc.ends payment older last hrows
    exact ⟨older, hends.eq_of_live hlive ▸ hends⟩

/-- A send that is proved not to have landed is replaced exactly when the payment and the
rail identity match, the attempt's number fits, and the rail keeps no other bytes for
the payment. -/
theorem replaced_iff_rail_free (d : Digests) (hash : String → String) :
    (∀ (cmds : List Money.Command) (row : WithdrawalRow),
      let db := run (MoneyDb.step d) MoneyDb.empty cmds
      row ∈ db.withdrawals → row.combo = .w7 →
      ∃ payment old, db.outbound.paymentBySubject .withdrawal row.id.uuid = some payment ∧
        db.outbound.liveAttempt payment.id = .ok (some old) ∧
        ∀ facts observations rpc signed rails,
          Expired db.outbound facts.identity observations facts.height facts.signed
            facts.freshAttempt rpc old signed →
          (WithdrawalReplaced rpc facts observations row old signed.1 ⟨db, rails⟩ ↔
            ensurePaymentMatches payment row facts.identity = .ok () ∧
            (db.outbound.attemptsFor payment.id).length < 2147483647 ∧
            rails.Free payment.id (signed.1, signed.2.1))) ∧
    ∀ (cmds : List Deposit.Command) (row : DepositMachineRow) payment old,
      let db := run (DepositDb.step hash) DepositDb.empty cmds
      row ∈ db.deposits → row.status = .refundSending →
      db.refundPaymentForDeposit row.id = some payment →
      db.outbound.liveAttempt payment.id = .ok (some old) → old.landingState = .unknown →
      ∀ facts identity observations rpc signed rails, facts.seen = row.status →
        Expired db.outbound identity observations facts.height facts.signed facts.freshAttempt rpc
          old signed →
        (RefundReplaced rpc facts identity observations row.chainSig old signed.1 ⟨db, rails⟩ ↔
          checkedRefundPayment row db = .ok payment ∧
          payment.railFingerprint = identity.fingerprint ∧
          (db.outbound.attemptsFor payment.id).length < 2147483647 ∧
          rails.Free payment.id (signed.1, signed.2.1)) := by
  constructor
  · intro cmds row db hrow hcombo
    obtain ⟨hc, ht⟩ := tracked_run d cmds
    have hfound := find_of_mem hc.ids hrow
    obtain ⟨payment, older, old, hp, hends, hstate⟩ := exists_unknown hfound ht hcombo
    have hlive : old.landingState.isLive = true := by
      rw [hstate]
      rfl
    refine ⟨payment, old, hp, hends.liveAttempt ht.valid hlive, ?_⟩
    intro facts observations rpc signed rails hexpired
    exact replaceExpiredOver_iff ht.valid hfound hcombo hp hends hstate hexpired rails
  · intro cmds row payment old db hrow hstatus hp hlive hstate facts identity observations rpc
      signed rails hseen hexpired
    have hc := chained_run hash cmds
    have hsig := find_of_mem (Deposit.conserved_run hash cmds).sigs hrow
    obtain ⟨older, hends⟩ := endsIn_of_live hc hlive
    exact replaceExpiredRefundOver_iff hc.valid hsig (hseen.trans hstatus) hp hends hstate hexpired
      rails

/-! A withdrawal and a refund whose first sends are lost. -/

def lostHistory : List Money.Command := (replacedHistory ⟨5⟩ ⟨9⟩).take 7

def plainDigests : Digests := ⟨fun _ _ dest => dest, fun _ _ => ""⟩

def lostWithdrawal : MoneyDb := run (MoneyDb.step plainDigests) MoneyDb.empty lostHistory

def heldDeposit : ObservedDeposit :=
  { user := none, amount := 40, chainSig := "sig", sourceAddress := "source", destAddress := "dest"
    mint := "mint", slot := 1 }

def refundFacts (now : Instant) (seen : DepositMachineStatus) (signature : String)
    (attempt : Uuid) (height : Int) : RefundFacts :=
  { now := now, seen := seen, signed := .ok ([1], signature, 10), persisted := .ok ()
    presence := .ok .unknown, height := .ok height, freshAttempt := attempt }

/-- An unmatched deposit is held and its refund approved. -/
def approvedHistory : List Deposit.Command :=
  [.observe heldDeposit replacedIdentity.fingerprint ⟨9⟩,
    .admitObserved
      { seen := .observedFinalized, amlOpen := .ok false, before := ⟨[], []⟩, banned := .ok false
        gate := .ok (), afterwards := ⟨[], []⟩ } "sig" .machine false,
    .propose 0 .complianceHold ⟨9⟩ true "unmatched" (.admin "finance" .finance) 1,
    .confirmRefund { now := 0, seen := .complianceHold, before := ⟨[], []⟩, afterwards := ⟨[], []⟩
                     banned := .ok false, geoClear := .ok true, sanctionsClear := .ok true
                     freshPayment := 7 } 1 (.admin "superadmin" .superadmin)]

def lostRefundHistory : List Deposit.Command :=
  approvedHistory ++ [.beginRefundSend (refundFacts 20 .refundApproved "first" 1 5) "sig",
    .beginRefundSend (refundFacts (20 + lease) .refundSending "first" 1 5) "sig"]

def lostRefund : DepositDb := run (DepositDb.step id) DepositDb.empty lostRefundHistory

def absentEverywhere : List QuorumObservation :=
  ["a", "b", "c"].map fun endpoint => ⟨endpoint, some 11, some false, false⟩

/-- An endpoint that accepts the replacement. -/
def acceptsSecond : Rpc := fun _ _ => .ok (some "second")

theorem expired_of_lost {height : Except StoreError Int} (hheight : height = .ok 11)
    (hanswer : answer = .ok ([1], "second", 10)) (hold : old ∈ o.attempts)
    (ho : ∀ a ∈ o.attempts, a.lastValidBlockHeight = 10 ∧ a.signature ≠ "second" ∧ a.id ≠ 2) :
    Expired o replacedIdentity absentEverywhere height answer 2 acceptsSecond old
      ([1], "second", 10) where
  expired := ⟨11, hheight, by rw [(ho old hold).1]; decide⟩
  proved := by rw [(ho old hold).1]; decide +kernel
  signer := hanswer
  signs := by
    refine ⟨by decide, by decide +kernel, by decide, fun hmem => ?_⟩
    obtain ⟨a, ha, hsig⟩ := List.mem_map.1 hmem
    exact (ho a ha).2.1 hsig
  attempt := by
    intro hmem
    obtain ⟨a, ha, hid⟩ := List.mem_map.1 hmem
    exact (ho a ha).2.2 hid
  accepts := fun _ => rfl

/-- On a rail that keeps nothing yet both sends are replaced. -/
theorem lost_sends_replaced :
    (∃ row ∈ lostWithdrawal.withdrawals, ∃ old, row.combo = .w7 ∧
      WithdrawalReplaced acceptsSecond (replacedSend "second" 2 11) absentEverywhere row old [1]
        ⟨lostWithdrawal, SolanaRails.new⟩) ∧
    ∃ row ∈ lostRefund.deposits, ∃ old, row.status = .refundSending ∧
      RefundReplaced acceptsSecond (refundFacts 20 .refundSending "second" 2 11) replacedIdentity
        absentEverywhere row.chainSig old [1] ⟨lostRefund, SolanaRails.new⟩ := by
  have hfree : ∀ payment signed, SolanaRails.new.Free payment signed := by
    intro payment signed held hheld
    contradiction
  constructor
  · obtain ⟨row, hrow, hcombo, hmatch⟩ : ∃ row ∈ lostWithdrawal.withdrawals, row.combo = .w7 ∧
        ∀ p ∈ lostWithdrawal.outbound.payments,
          ensurePaymentMatches p row replacedIdentity = .ok () := by decide +kernel
    have hattempts : ∀ a ∈ lostWithdrawal.outbound.attempts, a.lastValidBlockHeight = 10 ∧
        a.signature ≠ "second" ∧ a.id ≠ 2 := by decide +kernel
    have hfew : ∀ p ∈ lostWithdrawal.outbound.payments,
        (lostWithdrawal.outbound.attemptsFor p.id).length < 2147483647 := by decide +kernel
    have hwithdrawals := (replaced_iff_rail_free plainDigests id).1 lostHistory
    dsimp only at hwithdrawals
    rw [← lostWithdrawal] at hwithdrawals
    obtain ⟨payment, old, hp, hlive, hiff⟩ := hwithdrawals row hrow hcombo
    have hmem := mem_of_find hp
    have hold := (Outbound.mem_attemptRows.1 (liveAttempt_mem hlive).1).1
    have hnew := hiff (replacedSend "second" 2 11) absentEverywhere acceptsSecond
      ([1], "second", 10) SolanaRails.new (expired_of_lost rfl rfl hold hattempts)
    exact ⟨row, hrow, old, hcombo, hnew.2 ⟨hmatch payment hmem, hfew payment hmem, hfree _ _⟩⟩
  · obtain ⟨row, hrow, hstatus, hchecked⟩ : ∃ row ∈ lostRefund.deposits,
        row.status = .refundSending ∧ ∃ p ∈ lostRefund.outbound.payments,
          lostRefund.refundPaymentForDeposit row.id = some p ∧
          checkedRefundPayment row lostRefund = .ok p ∧
          p.railFingerprint = replacedIdentity.fingerprint ∧
          (lostRefund.outbound.attemptsFor p.id).length < 2147483647 ∧
          ∃ a ∈ lostRefund.outbound.attempts, a.landingState = .unknown ∧
            lostRefund.outbound.liveAttempt p.id = .ok (some a) := by decide +kernel
    obtain ⟨payment, -, hp, hchecked, hprint, hfew, old, hold, hstate, hlive⟩ := hchecked
    have hattempts : ∀ a ∈ lostRefund.outbound.attempts, a.lastValidBlockHeight = 10 ∧
        a.signature ≠ "second" ∧ a.id ≠ 2 := by decide +kernel
    have hrefunds := (replaced_iff_rail_free plainDigests id).2 lostRefundHistory
    dsimp only at hrefunds
    rw [← lostRefund] at hrefunds
    have hnew := hrefunds row payment old hrow hstatus hp hlive hstate
      (refundFacts 20 .refundSending "second" 2 11) replacedIdentity absentEverywhere acceptsSecond
      ([1], "second", 10) SolanaRails.new hstatus.symm (expired_of_lost rfl rfl hold hattempts)
    exact ⟨row, hrow, old, hstatus, hnew.2 ⟨hchecked, hprint, hfew, hfree _ _⟩⟩

/-- On the rail that kept the first bytes the replacement is refused. -/
theorem replacement_refused :
    SolanaRails.new.persistSigned 7 [1] "first" = .ok (SolanaRails.new.hold 7 ([1], "first")) ∧
    (lostWithdrawal.withdrawals.map fun r => (r.id, r.user, r.combo)) = [(⟨9⟩, ⟨5⟩, .w7)] ∧
    lostWithdrawal.outbound.payments.map OutboundPaymentRow.id = [7] ∧
    (lostWithdrawal.outbound.attempts.map fun a =>
      (a.signedTxBytes, a.signature, a.lastValidBlockHeight, a.landingState)) =
      [([1], "first", 10, .unknown)] ∧
    safeNonLandingVerdict 10 absentEverywhere replacedIdentity.rpcEndpoints = .definitiveFailed ∧
    ((replaceExpiredOver acceptsSecond (replacedSend "second" 2 11) absentEverywhere ⟨9⟩ ⟨5⟩
      ⟨lostWithdrawal, SolanaRails.new.hold 7 ([1], "first")⟩).map fun r => r.2.1) =
      .error (.store (.conflict "persisted signed bytes changed")) := by
  refine ⟨rfl, ?_⟩
  decide +kernel

end Opinions.Rail
