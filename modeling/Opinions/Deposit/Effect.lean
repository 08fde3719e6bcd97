import Opinions.Deposit.Refund
import Opinions.Trade.Journal

/-! What one committed transaction of the deposit machine can do: book an observation,
move a deposit that stays in suspense, admit one, or refund one. Anything else posts
beside the suspense account and writes at most the outbound tables. -/

namespace Opinions.Deposit

open Lib.Result Lib.Rows Domain.Ledger Model Store Trade Money

def IsSuspense (k : AccountKey) : Prop := k = suspense

theorem not_isSuspense_ingress (user : UserId) : ∀ k ∈ ingressAccounts user, ¬IsSuspense k := by
  simp [ingressAccounts, IsSuspense, suspense, cash, credit]

/-! ### Status writes -/

/-- Where a list of status writes leads from `start`, if each begins where the one
before it ended and is an edge of the table. -/
def path (start : DepositMachineStatus) : List StatusChange → Option DepositMachineStatus
  | [] => some start
  | c :: cs =>
    if c.start = start ∧ legalDepositTransition start c.stop = true then path c.stop cs else none

variable {start : DepositMachineStatus} {stop : DepositMachineStatus} {user : UserId}
  {digest : String} {a : OutboundAttemptRow} {payment : OutboundPaymentRow}
  {identity : RailIdentity}

theorem path_append {xs ys : List StatusChange} (h : path start xs = some stop) :
    path start (xs ++ ys) = path stop ys := by
  induction xs generalizing start with
  | nil =>
    cases h
    rfl
  | cons c cs ih =>
    rw [path] at h
    split_ifs at h with hc
    rw [List.cons_append, path, if_pos hc, ih h]

/-- One row is replaced by `next`, which its status reaches along edges of the table. -/
structure Moved (db : DepositDb) (row next : DepositMachineRow) (db' : DepositDb) : Prop where
  found : db.depositMachineById row.id = some row
  id : next.id = row.id
  deposits : db'.deposits = update DepositMachineRow.id row.id (fun _ => next) db.deposits
  changes : ∃ cs, db'.changes = db.changes ++ cs ∧ (∀ c ∈ cs, c.deposit = row.id) ∧
    path row.status cs = some next.status

variable {next : DepositMachineRow} {db db' : DepositDb} {row : DepositMachineRow}
  (hids : (db.deposits.map DepositMachineRow.id).Nodup)
  (hfound : db.depositMachineById row.id = some row)

theorem Moved.ids (h : Moved db row next db') :
    db'.deposits.map DepositMachineRow.id = db.deposits.map DepositMachineRow.id := by
  rw [h.deposits, update, List.map_map]
  refine List.map_congr_left fun r _ => ?_
  dsimp only [Function.comp_apply]
  split_ifs with hr
  · exact h.id.trans hr.symm
  · rfl

theorem Moved.found_next (h : Moved db row next db')
    (hids : (db.deposits.map DepositMachineRow.id).Nodup) :
    db'.depositMachineById next.id = some next := by
  have hmem : next ∈ db'.deposits := by
    rw [h.deposits, mem_update]
    exact ⟨row, mem_of_find h.found, if_pos rfl⟩
  exact find_of_mem (h.ids ▸ hids) hmem

include hids hfound in
theorem Moved.refl : Moved db row row db := by
  refine ⟨hfound, rfl, ?_, [], by simp, by simp, rfl⟩
  have hself := update_eq_const (f := fun r => r) hids hfound
  rwa [update_eq_self fun _ _ _ => rfl] at hself

variable {mid : DepositDb}

theorem Moved.trans {last : DepositMachineRow} (h₁ : Moved db row next mid)
    (h₂ : Moved mid next last db') : Moved db row last db' := by
  obtain ⟨cs, hcs, hdep, hpath⟩ := h₁.changes
  obtain ⟨cs', hcs', hdep', hpath'⟩ := h₂.changes
  refine ⟨h₁.found, h₂.id.trans h₁.id, ?_, cs ++ cs', ?_, ?_, ?_⟩
  · rw [h₂.deposits, h₁.id, h₁.deposits, update_update fun _ _ => h₁.id]
  · rw [hcs', hcs, List.append_assoc]
  · intro c hc
    rcases List.mem_append.1 hc with hc | hc
    · exact hdep c hc
    · exact (hdep' c hc).trans h₁.id
  · rw [path_append hpath, hpath']

/-- What is written beside the deposits and the changes does not matter to a move. -/
theorem Moved.congr {mid' : DepositDb} (h : Moved mid row next mid')
    (hd : mid.deposits = db.deposits) (hc : mid.changes = db.changes)
    (hd' : mid'.deposits = db'.deposits) (hc' : mid'.changes = db'.changes) :
    Moved db row next db' := by
  obtain ⟨hfound, hid, hdeposits, hchanges⟩ := h
  rw [DepositDb.depositMachineById, hd] at hfound
  rw [hd, hd'] at hdeposits
  rw [hc, hc'] at hchanges
  exact ⟨hfound, hid, hdeposits, hchanges⟩

include hids hfound in
theorem moved_of_write {f : DepositMachineRow → DepositMachineRow} (hid : (f row).id = row.id)
    (hstatus : (f row).status = row.status) : Moved db row (f row) (db.writeDeposit row.id f) :=
  ⟨hfound, hid, update_eq_const hids hfound, [], by simp [DepositDb.writeDeposit], by simp,
    congrArg some hstatus.symm⟩

variable {key : String}

section Writes

include hids hfound

theorem casDepositStatus_spec (h : db.casDepositStatus row.id start stop = .ok db') :
    row.status = start ∧ Moved db row { row with status := stop } db' ∧
      db'.ledger = db.ledger ∧ db'.outbound = db.outbound := by
  simp only [DepositDb.casDepositStatus, hfound, Option.map_some, not_not, Option.some.injEq,
    Bool.not_eq_false, ok_iff] at h
  obtain ⟨_, hlegal, _, rfl, rfl⟩ := h
  refine ⟨rfl, ⟨hfound, rfl, update_eq_const hids hfound, [⟨row.id, row.status, stop⟩], rfl, ?_, ?_⟩,
    rfl, rfl⟩
  · simp
  · simp [path, hlegal]

omit hids in
theorem unmarked_spec (h : db.unmarked row.id ≠ false) :
    row.admitTx = none ∧ row.refundTx = none := by
  simpa [DepositDb.unmarked, hfound] using h

theorem markAdmitted_spec (h : db.markAdmitted row.id key = .ok db') :
    (row.admitTx = none ∧ row.refundTx = none) ∧
      Moved db row { row with admitTx := some key } db' ∧ db'.ledger = db.ledger ∧
      db'.outbound = db.outbound := by
  simp only [DepositDb.markAdmitted, ok_iff] at h
  obtain ⟨_, hunmarked, rfl⟩ := h
  refine ⟨unmarked_spec hfound hunmarked, ?_, rfl, rfl⟩
  exact moved_of_write (f := fun r => { r with admitTx := some key }) hids hfound rfl rfl

theorem markRefunded_spec (h : db.markRefunded row.id key = .ok db') :
    (row.admitTx = none ∧ row.refundTx = none) ∧
      Moved db row { row with refundTx := some key } db' ∧ db'.ledger = db.ledger ∧
      db'.outbound = db.outbound := by
  simp only [DepositDb.markRefunded, ok_iff] at h
  obtain ⟨_, hunmarked, rfl⟩ := h
  refine ⟨unmarked_spec hfound hunmarked, ?_, rfl, rfl⟩
  exact moved_of_write (f := fun r => { r with refundTx := some key }) hids hfound rfl rfl

end Writes

/-! ### Effects -/

inductive OutboundWrite (o o' : Outbound) : Prop
  | payment (p : OutboundPaymentRow) (write : o.insertPayment p = .ok o')
  | attempt (a : OutboundAttemptRow) (write : o.insertAttempt a = .ok o')
  | landing (a : OutboundAttemptRow) (write : o.saveAttempt a = .ok o')

/-- The entries are booked under the key, among transactions beside suspense. -/
def Posted (l : Ledger) (kind : TxnKind) (key : String) (entries : List (Entry AccountKey))
    (l' : Ledger) : Prop :=
  ∃ mid mid', Extends IsSuspense l mid ∧ mid.Applied kind key entries mid' ∧
    Extends IsSuspense mid' l'

inductive Effect (db db' : DepositDb) : Prop
  | quiet (ledger : Extends IsSuspense db.ledger db'.ledger)
      (deposits : db'.deposits = db.deposits) (changes : db'.changes = db.changes)
      (outbound : Relation.ReflTransGen OutboundWrite db.outbound db'.outbound)
  | observed (row : DepositMachineRow)
      (booked : Posted db.ledger .deposit (observeKey row.chainSig) (observeEntries row.amount)
        db'.ledger)
      (status : row.status = .observedFinalized) (positive : 0 < row.amount)
      (txns : row.suspenseTx = some (observeKey row.chainSig) ∧ row.admitTx = none ∧
        row.refundTx = none)
      (freshId : row.id ∉ db.deposits.map DepositMachineRow.id)
      (freshSig : row.chainSig ∉ db.deposits.map DepositMachineRow.chainSig)
      (deposits : db'.deposits = db.deposits ++ [row]) (changes : db'.changes = db.changes)
      (outbound : db'.outbound = db.outbound)
  | stayed (row : DepositMachineRow) (stop : DepositMachineStatus)
      (ledger : Extends IsSuspense db.ledger db'.ledger)
      (moved : Moved db row { row with status := stop } db')
      (start : isSuspenseLiability row.status = true) (liability : isSuspenseLiability stop = true)
      (outbound : Relation.ReflTransGen OutboundWrite db.outbound db'.outbound)
  | admitted (row : DepositMachineRow) (user : UserId) (owner : row.user = some user)
      (booked : Posted db.ledger .deposit (admitKey row.id) (admitEntries user row.amount)
        db'.ledger)
      (start : isSuspenseLiability row.status = true)
      (unmarked : row.admitTx = none ∧ row.refundTx = none)
      (moved : Moved db row { row with
        status := .admitted, admitTx := some (admitKey row.id) } db')
      (outbound : db'.outbound = db.outbound)
  | refunded (row : DepositMachineRow)
      (booked : Posted db.ledger .withdrawal (refundKey row.id) (refundEntries row.amount)
        db'.ledger)
      (start : isSuspenseLiability row.status = true)
      (unmarked : row.admitTx = none ∧ row.refundTx = none)
      (moved : Moved db row { row with
        status := .refunded, refundTx := some (refundKey row.id) } db')
      (outbound : Relation.ReflTransGen OutboundWrite db.outbound db'.outbound)

theorem Effect.refl (db : DepositDb) : Effect db db := .quiet (Extends.refl _) rfl rfl .refl

theorem effect_of_answer {α : Type} {a b : α}
    (h : (pure (a, db) : Except AppError (α × DepositDb)) = .ok (b, db')) : Effect db db' := by
  cases h
  exact .refl db

/-! ### Each transaction -/

theorem observeFinalizedOnRail_effect {o : ObservedDeposit} {fp : String} {freshId : DepositId}
    {receipt : ObservationReceipt} (h : observeFinalizedOnRail o fp freshId db = .ok (receipt, db')) :
    Effect db db' := by
  simp only [observeFinalizedOnRail, validateObservation, ok_iff] at h
  obtain ⟨_, ⟨_, hpositive, -⟩, _, -, h⟩ := h
  split at h
  · simp only [ok_iff] at h
    obtain ⟨_, -, _, -, -, rfl⟩ := h
    exact .refl _
  · simp only [DepositDb.observeDeposit, ok_iff] at h
    obtain ⟨ledger, hbook, _, ⟨_, hid, _, hsig, rfl⟩, -, rfl⟩ := h
    exact .observed _ ⟨_, _, (Extends.account _ _).trans (Extends.account _ _),
      Ledger.ledgerApply_spec hbook, Extends.refl _⟩ rfl (not_le.1 hpositive) ⟨rfl, rfl, rfl⟩ hid
      hsig rfl rfl rfl

variable {collected : Int}

theorem extends_of_collecting {l l' : Ledger} {ingress : Ingress}
    (h : collecting l user key ingress = .ok (collected, l')) : Extends IsSuspense l l' :=
  Extends.convertThenCollect (not_isSuspense_ingress user) (collecting_spec h)

section Transactions

variable {receipt : DepositReceipt}

/-- What an admission does to a stored row of status `start`. -/
structure Admits (start : DepositMachineStatus) (user : UserId) (row : DepositMachineRow)
    (db db' : DepositDb) : Prop where
  status : row.status = start
  booked : Posted db.ledger .deposit (admitKey row.id) (admitEntries user row.amount) db'.ledger
  unmarked : row.admitTx = none ∧ row.refundTx = none
  moved : Moved db row { row with status := .admitted, admitTx := some (admitKey row.id) } db'
  outbound : db'.outbound = db.outbound

variable {seen : DepositMachineStatus}

include hids hfound in
theorem admitFrom_spec {afterwards : Ingress}
    (h : admitFrom start user { row with status := seen } collected afterwards db =
      .ok (receipt, db')) : Admits start user row db db' := by
  simp only [admitFrom, ok_iff] at h
  obtain ⟨ledger, hbook, marked, hmark, moved, hmove, ⟨more, collected'⟩, hcollect, _, -, -, rfl⟩ := h
  obtain ⟨hunmarked, hmarked, hledger, hout⟩ :=
    markAdmitted_spec (by exact hids) (by exact hfound) hmark
  obtain ⟨hstatus, hmoved, hledger', hout'⟩ :=
    casDepositStatus_spec (hmarked.ids ▸ hids) (hmarked.found_next hids) hmove
  rw [hledger', hledger] at hcollect
  exact
    { status := hstatus
      booked := ⟨_, _, (Extends.account _ _).trans (Extends.account _ _),
        Ledger.ledgerApply_spec hbook, extends_of_collecting hcollect⟩
      unmarked := hunmarked
      moved := (hmarked.trans hmoved).congr rfl rfl rfl rfl
      outbound := hout'.trans hout }

include hids hfound in
theorem holdAdmission_spec
    (h : holdAdmission { row with status := seen } collected db = .ok (receipt, db')) :
    row.status = .admissionPending ∧ Moved db row { row with status := .complianceHold } db' ∧ db'.ledger = db.ledger ∧
      db'.outbound = db.outbound := by
  simp only [holdAdmission, ok_iff] at h
  obtain ⟨held, hheld, -, rfl⟩ := h
  exact casDepositStatus_spec hids hfound hheld

/-- A decided admission: held, or admitted, with the ledger moved on before. -/
inductive Decided (row : DepositMachineRow) (db db' : DepositDb) : Prop
  | held (status : row.status = .admissionPending)
      (ledger : Extends IsSuspense db.ledger db'.ledger)
      (moved : Moved db row { row with status := .complianceHold } db')
      (outbound : db'.outbound = db.outbound)
  | admitted (user : UserId) (owner : row.user = some user) (ledger : Ledger)
      (extended : Extends IsSuspense db.ledger ledger)
      (admits : Admits .admissionPending user row { db with ledger := ledger } db')

include hids hfound in
theorem decideAdmission_spec {facts : AdmitFacts}
    (h : decideAdmission facts { row with status := seen } db = .ok (receipt, db')) :
    Decided row db db' := by
  have hheld : ∀ {ledger : Ledger} {collected : Int} {receipt : DepositReceipt},
      Extends IsSuspense db.ledger ledger →
      holdAdmission { row with status := seen } collected { db with ledger := ledger } =
        .ok (receipt, db') → Decided row db db' := by
    intro ledger collected receipt hext hhold
    obtain ⟨hstatus, hmoved, hledger, hout⟩ :=
      holdAdmission_spec (by exact hids) (by exact hfound) hhold
    exact .held hstatus (hledger ▸ hext) (hmoved.congr rfl rfl rfl rfl) hout
  rw [decideAdmission] at h
  split at h
  · exact hheld (Extends.refl _) h
  · rename_i user howner
    simp only [ok_iff] at h
    obtain ⟨flagged, -, h⟩ := h
    split_ifs at h
    · exact hheld (Extends.refl _) h
    · simp only [ok_iff] at h
      obtain ⟨⟨collected, ledger⟩, hcollect, banned, -, h⟩ := h
      have hext := extends_of_collecting hcollect
      split at h
      · split_ifs at h
        exact hheld hext h
      · exact .admitted user howner ledger hext
          (admitFrom_spec (by exact hids) (by exact hfound) h)

include hids hfound in
theorem startAdmission_spec (h : startAdmission { row with status := seen } db = .ok db') :
    ∃ stop, Moved db row { row with status := stop } db' ∧ (row.status = seen ∨ row.status = stop) ∧
      db'.ledger = db.ledger ∧ db'.outbound = db.outbound := by
  rw [startAdmission] at h
  split_ifs at h
  · cases h
    exact ⟨row.status, Moved.refl hids hfound, .inr rfl, rfl, rfl⟩
  · obtain ⟨hstatus, hmoved, hledger, hout⟩ := casDepositStatus_spec hids hfound h
    exact ⟨_, hmoved, .inl hstatus, hledger, hout⟩

include hids hfound in
/-- An admission leaves a suspense liability held or admitted. -/
theorem admitOpen_effect {facts : AdmitFacts} (hseen : isSuspenseLiability seen)
    (h : admitOpen facts { row with status := seen } db = .ok (receipt, db')) : Effect db db' := by
  simp only [admitOpen, bind_eq_ok] at h
  obtain ⟨pending, hstart, h⟩ := h
  obtain ⟨stop, hstarted, hor, hledger, hout⟩ := startAdmission_spec hids hfound hstart
  have hliability : stop = .admissionPending → isSuspenseLiability row.status = true := by
    rintro rfl
    rcases hor with hor | hor
    · rwa [hor]
    · rw [hor]; rfl
  have hids' : (pending.deposits.map DepositMachineRow.id).Nodup := hstarted.ids ▸ hids
  have hfound' := hstarted.found_next hids
  cases decideAdmission_spec hids' hfound' h with
  | held hstatus hext hmoved hout' =>
    exact .stayed row .complianceHold (hledger ▸ hext) (hstarted.trans hmoved)
      (hliability hstatus) rfl (by rw [hout', hout])
  | admitted user howner ledger hext hadmits =>
    obtain ⟨hstatus, hbooked, hunmarked, hmoved, hout'⟩ := hadmits
    obtain ⟨mid, mid', hpre, happlied, hpost⟩ := hbooked
    exact .admitted row user howner ⟨mid, mid', (hledger ▸ hext).trans hpre, happlied, hpost⟩
      (hliability hstatus) hunmarked (hstarted.trans (hmoved.congr rfl rfl rfl rfl))
      (hout'.trans hout)

variable {sig : String}

include hids in
theorem found_of_sig
    (h : db.depositMachineBySig sig = some row) : db.depositMachineById row.id = some row :=
  find_of_mem hids (mem_of_find h)

variable {actor : AdminContext}

include hids in
theorem admitObserved_effect {facts : AdmitFacts} {reevaluateHold : Bool}
    (h : admitObserved facts sig actor reevaluateHold db = .ok (receipt, db')) : Effect db db' := by
  simp only [admitObserved, ok_iff] at h
  obtain ⟨_, -, stored, hstored, h⟩ := h
  have hopen : isSuspenseLiability facts.seen = true →
      admitOpen facts { stored with status := facts.seen } db = .ok (receipt, db') →
      Effect db db' := admitOpen_effect hids (found_of_sig hids hstored)
  cases hseen : facts.seen <;> rw [hseen] at h hopen <;> dsimp only at h
  case observedFinalized | admissionPending => exact hopen rfl h
  case admitted | admittedLegacy => exact effect_of_answer h
  case complianceHold =>
    split_ifs at h
    · exact hopen rfl h
    · exact effect_of_answer h
  all_goals contradiction

/-! ### Dual control -/

variable {hash : String → String} {p : MoneyProposal}

theorem proposeDepositCommand_effect {now : Instant} {deposit : DepositId} {refund : Bool}
    {reason : String} {freshId : Uuid}
    (h : proposeDepositCommand hash now seen deposit refund reason actor freshId db = .ok (p, db')) :
    Effect db db' := by
  simp only [proposeDepositCommand, ok_iff] at h
  obtain ⟨_, -, _, -, _, -, _, -, _, -, h⟩ := h
  split at h
  · simp only [bind_eq_ok] at h
    obtain ⟨_, -, h⟩ := h
    exact effect_of_answer h
  · simp only [DepositDb.insertProposal, ok_iff] at h
    obtain ⟨_, ⟨_, -, _, -, rfl⟩, -, rfl⟩ := h
    exact .quiet (Extends.refl _) rfl rfl .refl

theorem confirmDepositProposal_spec (h : confirmDepositProposal p digest db = .ok db') :
    db'.ledger = db.ledger ∧ db'.deposits = db.deposits ∧ db'.changes = db.changes ∧
      db'.outbound = db.outbound := by
  simp only [confirmDepositProposal, DepositDb.confirmProposal, ok_iff] at h
  obtain ⟨_, ⟨_, -, rfl⟩, _, -, rfl⟩ := h
  exact ⟨rfl, rfl, rfl, rfl⟩

variable {proposal : Uuid}

theorem confirmable_found {facts : ConfirmFacts} {kind notHeld : String}
    (h : confirmable hash facts kind notHeld proposal actor db = .ok (digest, p, row)) :
    db.depositMachineById row.id = some row := by
  simp only [confirmable, ok_iff] at h
  obtain ⟨_, -, _, -, _, -, _, -, stored, hstored, _, -, _, -, -, -, rfl⟩ := h
  rwa [key_of_find hstored]

include hids in
theorem confirmManualDepositAdmission_effect {facts : ConfirmFacts}
    (h : confirmManualDepositAdmission hash facts proposal actor db = .ok (receipt, db')) :
    Effect db db' := by
  simp only [confirmManualDepositAdmission, ok_iff] at h
  obtain ⟨⟨digest, p, row⟩, hcheck, user, howner, ⟨_, ledger⟩, hcollect, ⟨_, admitted⟩, hadmit,
    confirmed, hconfirm, -, rfl⟩ := h
  have hfound := confirmable_found hcheck
  obtain ⟨hstatus, ⟨mid, mid', hpre, happlied, hpost⟩, hunmarked, hmoved, hout⟩ :=
    admitFrom_spec (by exact hids) (by exact hfound) hadmit
  obtain ⟨hledger, hdeposits, hchanges, hout'⟩ := confirmDepositProposal_spec hconfirm
  exact .admitted row user howner
    ⟨mid, mid', (extends_of_collecting hcollect).trans hpre, happlied, hledger ▸ hpost⟩
    (by rw [hstatus]; rfl) hunmarked (hmoved.congr rfl rfl hdeposits.symm hchanges.symm)
    (hout'.trans hout)

theorem clearRefund_spec {facts : ConfirmFacts} (h : clearRefund facts row db = .ok db') :
    Extends IsSuspense db.ledger db'.ledger ∧ db' = { db with ledger := db'.ledger } := by
  rw [clearRefund] at h
  split at h
  · cases h
    exact ⟨Extends.refl _, rfl⟩
  · simp only [ok_iff] at h
    obtain ⟨⟨_, ledger⟩, hcollect, _, -, _, -, rfl⟩ := h
    exact ⟨extends_of_collecting hcollect, rfl⟩

include hids in
theorem confirmDepositRefund_effect {facts : ConfirmFacts} {answer : RefundReceipt}
    (h : confirmDepositRefund hash facts proposal actor db = .ok (answer, db')) :
    Effect db db' := by
  simp only [confirmDepositRefund, ok_iff] at h
  obtain ⟨⟨digest, p, row⟩, hcheck, cleared, hclear, moved, hmove, outbound, hpay, confirmed,
    hconfirm, -, rfl⟩ := h
  have hfound := confirmable_found hcheck
  obtain ⟨hext, hcleared⟩ := clearRefund_spec hclear
  rw [hcleared] at hmove
  obtain ⟨hstatus, hmoved, hledger, hout⟩ :=
    casDepositStatus_spec (by exact hids) (by exact hfound) hmove
  obtain ⟨hledger', hdeposits, hchanges, hout'⟩ := confirmDepositProposal_spec hconfirm
  refine .stayed row .refundApproved ?_ (hmoved.congr rfl rfl hdeposits.symm hchanges.symm)
    (by rw [hstatus]; rfl) rfl ?_
  · rwa [hledger', hledger]
  · rw [hout']
    rw [hout] at hpay
    exact .single (.payment _ hpay)

/-! ### Sending a refund -/

variable {sent : RefundSent}

include hids in
theorem storedRefund_found
    (h : storedRefund sig db = .ok row) : db.depositMachineById row.id = some row :=
  found_of_sig hids (okOr_eq_ok.1 h)

def OutboundOnly (db db' : DepositDb) : Prop :=
  db' = { db with outbound := db'.outbound } ∧
    Relation.ReflTransGen OutboundWrite db.outbound db'.outbound

theorem OutboundOnly.effect (h : OutboundOnly db db') : Effect db db' := by
  obtain ⟨hdb, hwrites⟩ := h
  rw [hdb] at hwrites ⊢
  exact .quiet (Extends.refl _) rfl rfl hwrites

theorem saveRefundAttempt_spec (h : saveRefundAttempt a db = .ok db') : OutboundOnly db db' := by
  simp only [saveRefundAttempt, ok_iff] at h
  obtain ⟨outbound, hsave, rfl⟩ := h
  exact ⟨rfl, .single (.landing a hsave)⟩

theorem insertRefundAttempt_spec (h : insertRefundAttempt a db = .ok db') :
    OutboundOnly db db' := by
  simp only [insertRefundAttempt, ok_iff] at h
  obtain ⟨outbound, hinsert, rfl⟩ := h
  exact ⟨rfl, .single (.attempt a hinsert)⟩

theorem OutboundOnly.trans (h₁ : OutboundOnly db mid) (h₂ : OutboundOnly mid db') :
    OutboundOnly db db' := by
  obtain ⟨hmid, hwrites⟩ := h₁
  obtain ⟨hdb, hwrites'⟩ := h₂
  refine ⟨?_, hwrites.trans hwrites'⟩
  rw [hdb, hmid]

variable {facts : RefundFacts}

include hids hfound in
theorem claimRefund_effect
    (h : claimRefund facts row payment db = .ok (sent, db')) : Effect db db' := by
  simp only [claimRefund, ok_iff] at h
  obtain ⟨_, -, signed, -, inserted, hinsert, _, -, moved, hmove, -, rfl⟩ := h
  obtain ⟨hinserted, hwrites⟩ := insertRefundAttempt_spec hinsert
  rw [hinserted] at hmove
  obtain ⟨hstatus, hmoved, hledger, hout⟩ :=
    casDepositStatus_spec (by exact hids) (by exact hfound) hmove
  exact .stayed row .refundSending (hledger ▸ Extends.refl _) (hmoved.congr rfl rfl rfl rfl)
    (by rw [hstatus]; rfl) rfl (hout ▸ hwrites)

theorem recoverPrepared_effect {attempt : OutboundAttemptRow}
    (h : recoverPrepared facts row payment attempt db = .ok (sent, db')) : Effect db db' := by
  simp only [recoverPrepared, ok_iff] at h
  obtain ⟨_, -, _, -, h⟩ := h
  have hsave : ∀ {a : OutboundAttemptRow} {answer : RefundSent},
      (do let saved ← saveRefundAttempt a db; pure (answer, saved)) = .ok (sent, db') →
      Effect db db' := by
    intro a answer hsaved
    simp only [ok_iff] at hsaved
    obtain ⟨saved, hsaved, -, rfl⟩ := hsaved
    exact (saveRefundAttempt_spec hsaved).effect
  split_ifs at h
  · exact hsave h
  · exact effect_of_answer h
  · exact hsave h

include hids in
theorem beginRefundSend_effect
    (h : beginRefundSend facts sig db = .ok (sent, db')) : Effect db db' := by
  simp only [beginRefundSend, bind_eq_ok, refuse_eq_ok] at h
  obtain ⟨row, hrow, _, -, payment, -, h⟩ := h
  split_ifs at h
  · simp only [bind_eq_ok, refuse_eq_ok] at h
    obtain ⟨_, -, h⟩ := h
    exact effect_of_answer h
  · simp only [resumeRefund, bind_eq_ok] at h
    obtain ⟨attempt, -, h⟩ := h
    split at h
    · exact effect_of_answer h
    · exact recoverPrepared_effect h
    · simp only [bind_eq_ok, refuse_eq_ok] at h
      obtain ⟨_, -, _, -, h⟩ := h
      exact effect_of_answer h
    · contradiction
    · contradiction
  · exact claimRefund_effect hids (storedRefund_found hids hrow) h

theorem markRefundBroadcast_effect (h : markRefundBroadcast seen sig db = .ok ((), db')) :
    Effect db db' := by
  simp only [markRefundBroadcast, ok_iff] at h
  obtain ⟨_, -, _, -, _, -, _, -, h⟩ := h
  split_ifs at h
  · exact effect_of_answer h
  · simp only [true_and, ok_iff] at h
    obtain ⟨_, -, saved, hsave, rfl⟩ := h
    exact (saveRefundAttempt_spec hsave).effect

theorem replaceExpiredRefund_effect {observations : List QuorumObservation}
    (h : replaceExpiredRefund facts identity observations sig db = .ok (sent, db')) :
    Effect db db' := by
  simp only [replaceExpiredRefund, replaceRefundAttempt, ok_iff] at h
  obtain ⟨_, -, _, -, _, -, _, -, _, -, _, -, _, -, _, -, _, -, failed, hfail, _, -, _, -,
    inserted, hinsert, _, -, -, rfl⟩ := h
  exact ((saveRefundAttempt_spec hfail).trans (insertRefundAttempt_spec hinsert)).effect

include hids in
theorem settleRefund_effect {chain : ChainReceipt} {settled : RefundSettlementReceipt}
    (h : settleRefund seen identity chain sig db = .ok (settled, db')) : Effect db db' := by
  simp only [settleRefund, bind_eq_ok, refuse_eq_ok, okOr_eq_ok] at h
  obtain ⟨row, hrow, _, -, _, -, attempt, -, _, -, h⟩ := h
  have hfound := storedRefund_found hids hrow
  split_ifs at h
  · simp only [bind_eq_ok, refuse_eq_ok] at h
    obtain ⟨_, -, _, -, h⟩ := h
    exact effect_of_answer h
  · simp only [payRefund, bind_eq_ok, refuse_eq_ok, mapError_eq_ok, pure_eq_ok, Prod.mk.injEq] at h
    obtain ⟨_, -, _, -, saved, hsave, paid, ⟨ledger, hbook, marked, hmark, hmove⟩, -, rfl⟩ := h
    obtain ⟨hsaved, hwrites⟩ := saveRefundAttempt_spec hsave
    rw [hsaved] at hbook hmark
    obtain ⟨hunmarked, hmarked, hledger, hout⟩ :=
      markRefunded_spec (by exact hids) (by exact hfound) hmark
    obtain ⟨hstatus, hmoved, hledger', hout'⟩ :=
      casDepositStatus_spec (hmarked.ids ▸ hids) (hmarked.found_next (by exact hids)) hmove
    refine .refunded row ⟨_, ledger, (Extends.account _ _).trans (Extends.account _ _),
      Ledger.ledgerApply_spec hbook, ?_⟩ ?_ hunmarked ((hmarked.trans hmoved).congr rfl rfl rfl rfl)
      ?_
    · rw [hledger', hledger]
      exact Extends.refl _
    · have hsending : row.status = .refundSending := hstatus
      rw [hsending]
      rfl
    · rwa [hout', hout]

end Transactions

end Opinions.Deposit
