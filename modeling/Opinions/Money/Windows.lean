import Opinions.Money.Machine

/-! The two rolling windows (`window_sum_*` and `finance_approve_sum_since` of
`adapters/src/pg/withdraw_tx.rs`). A requested amount counts until its row is denied or
has failed; so only a request raises the first window, and only the event of an approval
the second. Every other transaction leaves both where they are or lowers them. -/

namespace Opinions.Money

open Lib.Checked Lib.Result Lib.Rows Domain.Ledger Model Trade

inductive Scope
  | user (user : UserId)
  | dest (dest : String)
  | hot

def Scope.covers : Scope → WithdrawalRow → Bool
  | .user u, r => r.user = u
  | .dest d, r => r.dest = d
  | .hot, _ => true

def Combo.countsInDailyWindow (c : Combo) : Bool := c.status ≠ .denied ∧ c.status ≠ .failed

def weight (s : Scope) (since : Instant) (r : WithdrawalRow) : Int :=
  if s.covers r ∧ since ≤ r.requestedAt ∧ r.combo.countsInDailyWindow then r.amountMicro else 0

/-- What an event adds to the window of approvals. -/
def approval (since : Instant) (e : WithdrawalEvent) : Int :=
  if e.kind = "finance-approve" ∧ since ≤ e.recordedAt then e.amountMicro.getD 0 else 0

namespace MoneyDb

def windowTotal (db : MoneyDb) (s : Scope) (since : Instant) : Int :=
  (db.withdrawals.map (weight s since)).sum

def approvedTotal (db : MoneyDb) (since : Instant) : Int := (db.events.map (approval since)).sum

end MoneyDb

theorem bigint_eq_ok {x y : Int} (h : MoneyDb.bigint x = .ok y) : y = x := by
  simp only [MoneyDb.bigint, okOr_eq_ok, tryI64_eq_some] at h
  exact h.1.symm

variable {s : Scope} {db db' : MoneyDb} {later since : Instant} {r row : WithdrawalRow}
  {facts : MoneyFacts} {id : WithdrawalId} {attempt : OutboundAttemptRow} {d : Digests}
  {amount sum : Int} {a b : MoneyDb} {p : MoneyProposal} {key : String} {user : UserId}

theorem windowSum_eq_ok (h : db.windowSum s.covers since = .ok sum) :
    sum = db.windowTotal s since := by
  rw [bigint_eq_ok h, sum_filter]
  refine congrArg List.sum (List.map_congr_left fun r _ => ?_)
  simp [weight, Combo.countsInDailyWindow]

theorem financeApproveSumSince_eq_ok (h : db.financeApproveSumSince since = .ok sum) :
    sum = db.approvedTotal since := by
  rw [bigint_eq_ok h, sum_filter]
  refine congrArg List.sum (List.map_congr_left fun e _ => ?_)
  simp [approval]

theorem weight_nonneg (h : 0 ≤ r.amountMicro) : 0 ≤ weight s since r := by
  unfold weight
  split_ifs
  · exact h
  · exact le_rfl

theorem weight_le (h : 0 ≤ r.amountMicro) : weight s since r ≤ r.amountMicro := by
  unfold weight
  split_ifs
  · exact le_rfl
  · exact h

theorem weight_mono (h : 0 ≤ r.amountMicro) (hlater : since ≤ later) :
    weight s later r ≤ weight s since r := by
  by_cases hin : later ≤ r.requestedAt
  · simp only [weight, hin, hlater.trans hin]
    exact le_rfl
  · simp only [weight, hin, false_and, and_false, if_false]
    exact weight_nonneg h

theorem approval_mono {e : WithdrawalEvent}
    (h : e.kind = "finance-approve" → 0 ≤ e.amountMicro.getD 0) (hlater : since ≤ later) :
    approval later e ≤ approval since e := by
  unfold approval
  by_cases hin : later ≤ e.recordedAt
  · simp only [hin, hlater.trans hin]
    exact le_rfl
  · simp only [hin, and_false, if_false]
    split_ifs with hearlier
    · exact h hearlier.1
    · exact le_rfl

/-- What one transaction did to the rows: nothing, a row added, or a counted row moved. -/
inductive RowStep (db db' : MoneyDb) : Prop
  | same (withdrawals : db'.withdrawals = db.withdrawals)
  | added (row : WithdrawalRow) (fresh : row.id ∉ db.withdrawals.map WithdrawalRow.id)
      (withdrawals : db'.withdrawals = db.withdrawals ++ [row])
  | moved (row next : WithdrawalRow) (moved : RowMoved db row next db')
      (counted : row.combo.countsInDailyWindow = true)

theorem RowStep.congr (h : RowStep a b) (ha : a.withdrawals = db.withdrawals)
    (hb : db'.withdrawals = b.withdrawals) : RowStep db db' := by
  cases h with
  | same withdrawals => exact .same (hb.trans (withdrawals.trans ha))
  | added row fresh withdrawals => exact .added row (ha ▸ fresh) (hb.trans (ha ▸ withdrawals))
  | moved row next moved counted =>
    refine .moved row next ⟨?_, hb.trans (ha ▸ moved.withdrawals)⟩ counted
    rw [MoneyDb.withdrawal, ← ha]
    exact moved.found

theorem countsInDailyWindow_of_active {c : Combo} (h : c.hasActiveHold = true) :
    c.countsInDailyWindow = true := by
  rcases c with ⟨status, review, send⟩
  revert h
  cases status <;> simp [Combo.hasActiveHold, Combo.countsInDailyWindow]

/-- No edge starts at a denied or failed row. -/
theorem Effect.rowStep (h : Effect db db') : RowStep db db' := by
  cases h with
  | quiet _ withdrawals | noted _ _ _ _ _ _ _ withdrawals | refund _ _ withdrawals =>
    exact .same withdrawals
  | requested row _ _ _ _ _ fresh withdrawals => exact .added row fresh withdrawals
  | reviewed row next moved edge | landed row next _ moved edge =>
    exact .moved row next moved (countsInDailyWindow_of_active edge.active.1)
  | denied row next moved target =>
    exact .moved row next moved (countsInDailyWindow_of_active (Combo.denyTarget_spec target).1)
  | claimed row next _ moved start | replaced row next _ _ _ moved start
  | settled row next _ moved start => exact .moved row next moved (by rw [start]; rfl)
  | failed row next _ moved start =>
    refine .moved row next moved ?_
    rcases start with start | start <;> rw [start] <;> rfl

/-- Row ids are unique, and no requested or approved amount is negative. -/
structure Tidy (db : MoneyDb) : Prop where
  ids : (db.withdrawals.map WithdrawalRow.id).Nodup
  amounts : ∀ r ∈ db.withdrawals, 0 ≤ r.amountMicro
  approvals : ∀ e ∈ db.events, e.kind = "finance-approve" → 0 ≤ e.amountMicro.getD 0

namespace Tidy

theorem windowTotal_mono (h : Tidy db) (s : Scope) (hlater : since ≤ later) :
    db.windowTotal s later ≤ db.windowTotal s since :=
  List.sum_le_sum fun r hr => weight_mono (h.amounts r hr) hlater

theorem approvedTotal_mono (h : Tidy db) (hlater : since ≤ later) :
    db.approvedTotal later ≤ db.approvedTotal since :=
  List.sum_le_sum fun e he => approval_mono (h.approvals e he) hlater

end Tidy

theorem Tidy.found (h : Tidy db) (hfound : db.withdrawal row.id = some row) : 0 ≤ row.amountMicro :=
  h.amounts row (mem_of_find hfound)

/-- A moved row keeps what it asked for; it may stop counting. -/
theorem weight_written (hamount : 0 ≤ row.amountMicro)
    (hcounted : row.combo.countsInDailyWindow = true) (next : WithdrawalRow) (s : Scope)
    (since : Instant) : weight s since (MoneyDb.written next row) ≤ weight s since row := by
  have hcovers : s.covers (MoneyDb.written next row) = s.covers row := by cases s <;> rfl
  by_cases hin : s.covers row = true ∧ since ≤ row.requestedAt
  · have hrow : weight s since row = row.amountMicro := if_pos ⟨hin.1, hin.2, hcounted⟩
    rw [hrow]
    exact weight_le (r := MoneyDb.written next row) hamount
  · have hout : weight s since (MoneyDb.written next row) = 0 :=
      if_neg fun h => hin ⟨hcovers ▸ h.1, h.2.1⟩
    rw [hout]
    exact weight_nonneg hamount

/-- A transaction that adds no row raises no window. -/
theorem RowStep.windowTotal_le (h : RowStep db db') (htidy : Tidy db)
    (hids : db'.withdrawals.map WithdrawalRow.id = db.withdrawals.map WithdrawalRow.id) (s : Scope)
    (since : Instant) : db'.windowTotal s since ≤ db.windowTotal s since := by
  cases h with
  | same withdrawals => rw [MoneyDb.windowTotal, withdrawals, MoneyDb.windowTotal]
  | added row fresh withdrawals =>
    rw [withdrawals] at hids
    have hlength := congrArg List.length hids
    simp at hlength
  | moved row next moved counted =>
    have hle := weight_written (htidy.found moved.found) counted next s since
    rw [MoneyDb.windowTotal, moved.withdrawals, sum_update htidy.ids moved.found,
      MoneyDb.windowTotal]
    omega

theorem RowStep.amounts (h : RowStep db db') (htidy : Tidy db)
    (hids : db'.withdrawals.map WithdrawalRow.id = db.withdrawals.map WithdrawalRow.id) :
    ∀ r ∈ db'.withdrawals, 0 ≤ r.amountMicro := by
  cases h with
  | same withdrawals => exact withdrawals ▸ htidy.amounts
  | added row fresh withdrawals =>
    rw [withdrawals] at hids
    have hlength := congrArg List.length hids
    simp at hlength
  | moved row next moved =>
    intro r hr
    rw [moved.withdrawals] at hr
    obtain ⟨r₀, hr₀, rfl⟩ := mem_update.1 hr
    split_ifs
    · exact htidy.amounts r₀ hr₀
    · exact htidy.amounts r₀ hr₀

/-- No row was added and no approval recorded. -/
structure Beside (db db' : MoneyDb) : Prop where
  ids : db'.withdrawals.map WithdrawalRow.id = db.withdrawals.map WithdrawalRow.id
  events : ∃ more, db'.events = db.events ++ more ∧ ∀ e ∈ more, e.kind ≠ "finance-approve"

namespace Beside

variable {c : MoneyDb}

theorem of_eq (hrows : db'.withdrawals = db.withdrawals) (hevents : db'.events = db.events) :
    Beside db db' where
  ids := congrArg _ hrows
  events := ⟨[], by rw [hevents, List.append_nil], (by rintro _ ⟨⟩)⟩

theorem refl (db : MoneyDb) : Beside db db := of_eq rfl rfl

theorem trans (h : Beside a b) (h' : Beside b c) : Beside a c := by
  obtain ⟨xs, hxs, hkind⟩ := h.events
  obtain ⟨ys, hys, hkind'⟩ := h'.events
  refine ⟨h'.ids.trans h.ids, xs ++ ys, by rw [hys, hxs, List.append_assoc], fun e he => ?_⟩
  rcases List.mem_append.1 he with he | he
  · exact hkind e he
  · exact hkind' e he

variable {kind : String}

theorem appendEvent (db : MoneyDb) {actor : String} {amount : Option Int}
    (hkind : kind ≠ "finance-approve") :
    Beside db (db.appendEvent facts id kind actor amount) where
  ids := rfl
  events := ⟨_, rfl, fun e he => by rw [List.mem_singleton.1 he]; exact hkind⟩

variable {next : WithdrawalRow}

theorem cas {expected : Combo} (h : db.casWithdrawal id expected next = .ok db') :
    Beside db db' := by
  simp only [MoneyDb.casWithdrawal, ok_iff] at h
  obtain ⟨_, -, rfl⟩ := h
  exact ⟨map_key_update (MoneyDb.written_id next), [], (List.append_nil _).symm, (by rintro _ ⟨⟩)⟩

theorem insertProposal (h : db.insertProposal p = .ok db') : Beside db db' := by
  simp only [MoneyDb.insertProposal, ok_iff] at h
  obtain ⟨_, -, _, -, _, -, _, -, rfl⟩ := h
  exact of_eq rfl rfl

theorem saveProposal (h : db.saveProposal p = .ok db') : Beside db db' := by
  simp only [MoneyDb.saveProposal, ok_iff] at h
  obtain ⟨_, -, _, -, _, -, rfl⟩ := h
  exact of_eq rfl rfl

theorem release (h : db.applyRelease user amount key = .ok db') : Beside db db' := by
  simp only [MoneyDb.applyRelease, ok_iff] at h
  obtain ⟨_, -, rfl⟩ := h
  exact of_eq rfl rfl

theorem settle (h : db.applySettle amount key = .ok db') : Beside db db' := by
  simp only [MoneyDb.applySettle, ok_iff] at h
  obtain ⟨_, -, rfl⟩ := h
  exact of_eq rfl rfl

theorem save (h : saveAttempt attempt db = .ok db') : Beside db db' := by
  obtain ⟨o, -, rfl⟩ := saveAttempt_spec h
  exact of_eq rfl rfl

theorem insert (h : insertAttempt attempt db = .ok db') : Beside db db' := by
  obtain ⟨o, -, rfl⟩ := insertAttempt_spec h
  exact of_eq rfl rfl

variable {start : Combo}

theorem decided {actor : String} (h : decided facts start next actor db = .ok (r, db')) :
    Beside db db' := by
  simp only [Money.decided, ok_iff] at h
  obtain ⟨swapped, hswap, -, rfl⟩ := h
  exact (cas hswap).trans (appendEvent swapped (by decide))

theorem finished (hkind : kind ≠ "finance-approve")
    (h : finishCas facts start next kind db = .ok db') : Beside db db' := by
  simp only [finishCas, ok_iff] at h
  obtain ⟨swapped, hswap, rfl⟩ := h
  exact (cas hswap).trans (appendEvent swapped hkind)

/-- An attempt saved, then the row moved. -/
theorem landed {mid : MoneyDb} (hkind : kind ≠ "finance-approve")
    (hsave : saveAttempt attempt db = .ok mid) (h : finishCas facts start next kind mid = .ok db') :
    Beside db db' :=
  (save hsave).trans (finished hkind h)

theorem tidy (h : Beside db db') (hrows : RowStep db db') (htidy : Tidy db) : Tidy db' where
  ids := h.ids ▸ htidy.ids
  amounts := hrows.amounts htidy h.ids
  approvals := by
    obtain ⟨more, hmore, hkind⟩ := h.events
    intro e he hk
    rw [hmore] at he
    rcases List.mem_append.1 he with he | he
    · exact htidy.approvals e he hk
    · exact absurd hk (hkind e he)

theorem approvedTotal_eq (h : Beside db db') (since : Instant) :
    db'.approvedTotal since = db.approvedTotal since := by
  obtain ⟨more, hmore, hkind⟩ := h.events
  have hnone : (more.map (approval since)).sum = 0 := by
    refine List.sum_eq_zero fun x hx => ?_
    obtain ⟨e, he, rfl⟩ := List.mem_map.1 hx
    exact if_neg fun hin => hkind e he hin.1
  rw [MoneyDb.approvedTotal, hmore, List.map_append, List.sum_append, hnone, add_zero,
    MoneyDb.approvedTotal]

end Beside

/-- Neither a request nor an approval. -/
def Command.aside : Command → Bool
  | .request _ _ => false
  | .decide _ _ _ _ (.financeApprove _) => false
  | .decide _ _ _ _ .confirmDual => false
  | _ => true

section Commands

variable {sending : SendFacts} {actor : AdminContext} {reason : String} {freshId : Uuid}
  {payment : OutboundPaymentRow} {sent : Sent}

theorem machine_beside (h : machine facts row db = .ok (r, db')) : Beside db db' := by
  simp only [machine, bind_eq_ok] at h
  obtain ⟨_, -, limits, -, view, -, current, -, h⟩ := h
  exact .decided h

theorem proposeDual_beside (h : proposeDual d facts row actor reason freshId db = .ok (r, db')) :
    Beside db db' := by
  simp only [proposeDual, bind_eq_ok] at h
  obtain ⟨_, -, _, -, digest, -, h⟩ := h
  split_ifs at h
  · simp only [ok_iff] at h
    obtain ⟨_, -, _, -, -, rfl⟩ := h
    exact .refl db
  · simp only [ok_iff] at h
    obtain ⟨_, -, proposed, hprop, h⟩ := h
    exact (Beside.insertProposal hprop).trans (.decided h)

theorem expireProposal_beside (h : expireProposal facts row db = .ok (r, db')) : Beside db db' := by
  simp only [expireProposal, ok_iff] at h
  obtain ⟨_, -, p, -, _, -, expired, hexp, h⟩ := h
  exact (Beside.saveProposal hexp).trans (.decided h)

theorem rejectOpenProposal_beside (h : rejectOpenProposal row db = .ok db') : Beside db db' := by
  unfold rejectOpenProposal at h
  split at h
  · exact Except.ok.inj h ▸ Beside.refl db
  · exact .saveProposal (mapError_eq_ok.1 h)

theorem deny_beside (h : deny facts row actor reason db = .ok (r, db')) : Beside db db' := by
  simp only [deny, ok_iff] at h
  obtain ⟨_, -, _, -, target, -, released, hrel, rejected, hrej, h⟩ := h
  exact ((Beside.release hrel).trans (rejectOpenProposal_beside hrej)).trans (.decided h)

theorem claimPayment_beside {p : OutboundPaymentRow}
    (h : claimPayment sending row db = .ok (p, db')) : Beside db db' := by
  unfold claimPayment at h
  split at h
  · cases h
    exact .refl db
  · simp only [ok_iff] at h
    obtain ⟨o, -, -, rfl⟩ := h
    exact .of_eq rfl rfl

theorem claimW2_beside (h : claimW2 sending row db = .ok (sent, db')) : Beside db db' := by
  simp only [claimW2, ok_iff] at h
  obtain ⟨⟨p, paid⟩, hpaid, _, -, _, -, signed, -, inserted, hins, _, -, swapped, hswap, -, rfl⟩ :=
    h
  exact (((claimPayment_beside hpaid).trans (.insert hins)).trans (.cas hswap)).trans
    (.appendEvent swapped (by decide))

theorem replaceAttempt_beside (h : replaceAttempt sending row payment attempt db = .ok (sent, db')) :
    Beside db db' := by
  simp only [replaceAttempt, ok_iff] at h
  obtain ⟨failed, hfail, signed, -, _, -, inserted, hins, _, -, swapped, hswap, -, rfl⟩ := h
  exact ((Beside.save hfail).trans (.insert hins)).trans (.finished (by decide) hswap)

theorem SendStep.beside {proof : Option (WithdrawalId × List QuorumObservation × List String)}
    (h : SendStep proof db db') : Beside db db' := by
  cases h with
  | same nothing => exact nothing ▸ .refl db
  | landed _ _ _ _ _ _ _ _ _ _ _ _ _ save cas event => exact .landed event save cas
  | noted _ _ _ _ _ _ _ save => exact .save save
  | claimed _ _ _ _ claim => exact claimW2_beside claim
  | replaced _ _ _ _ _ _ _ _ replace => exact replaceAttempt_beside replace
  | failed _ _ _ _ _ _ _ _ _ _ _ _ release save cas event =>
    exact (Beside.release release).trans (.landed event save cas)
  | settled _ _ _ _ _ _ settle cas event =>
    exact (Beside.settle settle).trans (.finished event cas)

end Commands

theorem decideWithdraw_beside {actor : AdminContext} {cmd : DecideCmd}
    (haside : Command.aside (.decide facts actor id user cmd) = true)
    (h : decideWithdraw d facts actor id user cmd db = .ok (r, db')) : Beside db db' := by
  simp only [decideWithdraw, bind_eq_ok] at h
  obtain ⟨row, -, h⟩ := h
  cases cmd with
  | machine =>
    simp only [decideRow, bind_eq_ok] at h
    obtain ⟨_, -, h⟩ := h
    exact machine_beside h
  | financeApprove | confirmDual => cases haside
  | proposeDual => exact proposeDual_beside h
  | expireProposal =>
    simp only [decideRow, bind_eq_ok] at h
    obtain ⟨_, -, h⟩ := h
    exact expireProposal_beside h
  | deny => exact deny_beside h

/-- Only requests and approvals raise a window. -/
theorem MoneyDb.step_beside {c : Command} (haside : c.aside = true) (h : db.step d c = .ok db') :
    Beside db db' := by
  cases MoneyDb.step_stepped h with
  | request => cases haside
  | decide done => exact decideWithdraw_beside haside done
  | send done => exact done.beside
  | refund | post => exact .of_eq rfl rfl

end Opinions.Money
