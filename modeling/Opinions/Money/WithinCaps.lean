import Opinions.Config.Catalog
import Opinions.Money.Capped

/-! The rolling caps hold. A session that took its cap lock keeps every sum it reads
from then on: whoever else would raise it waits for the same lock, and the other
transactions only lower it. So what a commit adds fits under the limit the sum was
compared with. -/

namespace Opinions.Money.Capped

open Lib Lib.Result Lib.Rows Lib.Run Lib.Locks Domain.Ledger Model Store Trade

/-! ### What the sums measure -/

/-- A sum that a cap bounds. -/
inductive Measure
  | window (s : Scope) (since : Instant)
  | approved (since : Instant)

/-- The lock under which the sum is read and raised. -/
def Measure.lock : Measure → Lock
  | .window _ _ => .cap "withdraw-daily"
  | .approved _ => .cap "withdraw-approve-daily"

def total (db : MoneyDb) : Measure → Int
  | .window s since => db.windowTotal s since
  | .approved since => db.approvedTotal since

def Stage.admission : Stage → Option Admitted
  | .asked | .userHeld | .refused _ _ => none
  | .admitted a | .capHeld a | .userRead a _ | .destRead a _ _ | .hotRead a _ _ _ => some a

def Stage.reads (x : Asked) : Stage → List (Measure × Int)
  | .userRead _ u => [(.window (.user x.cmd.user) x.since, u)]
  | .destRead _ u v => [(.window (.user x.cmd.user) x.since, u), (.window (.dest x.dest) x.since, v)]
  | .hotRead _ u v h => [(.window (.user x.cmd.user) x.since, u),
      (.window (.dest x.dest) x.since, v), (.window .hot x.since, h)]
  | _ => []

variable {s : Session} {facts : MoneyFacts} {db db' : MoneyDb} {x : Asked} {i : Nat} {w w' : World}
  {a : Approval} {row : WithdrawalRow} {p : Measure × Int} {mid : MoneyDb} {used : Int}

namespace Session

def lock : Session → Lock
  | .request _ _ => .cap "withdraw-daily"
  | .approval _ _ _ => .cap "withdraw-approve-daily"

def now : Session → Instant
  | .request x _ => x.facts.money.now
  | .approval facts _ _ => facts.now

def amount : Session → Int
  | .request x _ => x.cmd.amountMicro
  | .approval _ a _ => a.row.amountMicro

def limits : Session → Option WithdrawLimits
  | .request _ stage => stage.admission.map Admitted.limits
  | .approval _ a _ => some a.limits

def capped : Session → Bool
  | .request _ (.capHeld _) | .request _ (.userRead _ _) | .request _ (.destRead _ _ _)
  | .request _ (.hotRead _ _ _ _) => true
  | .request _ _ => false
  | .approval _ _ .gated => false
  | .approval _ _ _ => true

def reads : Session → List (Measure × Int)
  | .request x stage => stage.reads x
  | .approval facts _ (.usedRead used) => [(.approved (facts.now - hours 24), used)]
  | .approval _ _ _ => []

/-- An approval moves a row that counts. -/
def startCounts : Session → Bool
  | .request _ _ => true
  | .approval _ a _ => a.start.countsInDailyWindow

theorem lock_of_mem_reads (h : p ∈ s.reads) : p.1.lock = s.lock ∧ s.capped = true := by
  cases s with
  | request x stage =>
    cases stage <;>
      simp only [reads, Stage.reads, List.mem_cons, List.not_mem_nil, or_false] at h
    · subst h
      exact ⟨rfl, rfl⟩
    · rcases h with rfl | rfl <;> exact ⟨rfl, rfl⟩
    · rcases h with rfl | rfl | rfl <;> exact ⟨rfl, rfl⟩
  | approval facts a stage =>
    cases stage with
    | gated | capHeld => cases h
    | usedRead =>
      obtain rfl := List.mem_singleton.1 h
      exact ⟨rfl, rfl⟩

end Session

/-- The limits a transaction loads are these, or it does not load any. -/
def under (limits : WithdrawLimits) (facts : MoneyFacts) : Bool :=
  match facts.limits with
  | .ok loaded => loaded = limits
  | .error _ => true

def Action.under (limits : WithdrawLimits) : Action → Bool
  | .ask _ facts _ => Capped.under limits facts.money
  | .approve _ facts _ _ _ _ => Capped.under limits facts
  | _ => true

/-- Whether the facts a request still has to read the limits from are these limits. -/
def Session.under (limits : WithdrawLimits) : Session → Bool
  | .request x _ => Capped.under limits x.facts.money
  | .approval facts _ _ => Capped.under limits facts

/-- A session in flight: it decides by the fixed limits, holds its cap lock from when it
took it, and no sum it read has grown since. -/
structure Current (limits : WithdrawLimits) (w : World) (i : Nat) (s : Session) : Prop where
  amount : 0 ≤ s.amount
  now : s.now ≤ w.clock
  facts : s.under limits = true
  limits : ∀ l, s.limits = some l → l = limits
  held : s.capped = true → w.flight.Holds i s.lock
  read : ∀ p ∈ s.reads, total w.db p.1 ≤ p.2
  start : s.startCounts = true

theorem under_eq {limits l : WithdrawLimits} (h : under limits facts = true)
    (hl : facts.limits = .ok l) : l = limits := by
  simpa [under, hl] using h

theorem Asked.gate_limits {a : Admitted} (h : x.gate db = .ok (.admitted a)) :
    x.facts.money.limits = .ok a.limits := by
  simp only [gate, ok_iff] at h
  obtain ⟨limits, hlimits, view, -, h⟩ := h
  split at h
  · cases h
  · simp only [bind_eq_ok] at h
    obtain ⟨_, -, h⟩ := h
    split_ifs at h
    · cases h
    · cases h
      exact hlimits

theorem sumOf_eq_ok {s : Scope} {since : Instant} {sum : Int} (h : sumOf db s since = .ok sum) :
    total db (.window s since) ≤ sum :=
  (windowSum_eq_ok (mapError_eq_ok.1 h)).ge

variable {f : Sessions}

namespace Current

variable {limits : WithdrawLimits}

/-- A session is as current in a world where no clock went back, none of its locks is lost
and no sum it read has grown. -/
theorem carry (h : Current limits w i s) (hclock : w.clock ≤ w'.clock)
    (hkeeps : ∀ k, w.flight.Holds i k → w'.flight.Holds i k)
    (htotal : ∀ p ∈ s.reads, total w'.db p.1 ≤ total w.db p.1) : Current limits w' i s :=
  { h with
    now := h.now.trans hclock
    held := fun hc => hkeeps _ (h.held hc)
    read := fun p hp => (htotal p hp).trans (h.read p hp) }

variable {stage stage' : Stage}

/-- A request that has read no sum yet: there is nothing to keep but the limits. -/
theorem unread (h : Current limits w i (.request x stage)) (hreads : stage'.reads x = [])
    (hcap : Session.capped (.request x stage') = true → f.Holds i (.cap "withdraw-daily"))
    (hlimits : ∀ a, stage'.admission = some a → a.limits = limits) :
    Current limits { w with flight := f.put i (.request x stage') } i (.request x stage') where
  amount := h.amount
  now := h.now
  facts := h.facts
  limits := by
    intro l hl
    obtain ⟨a, ha, rfl⟩ := Option.map_eq_some_iff.1 hl
    exact hlimits a ha
  held := fun hc => Flight.holds_put.2 (hcap hc)
  read := by
    intro p hp
    rw [Session.reads, hreads] at hp
    cases hp
  start := rfl

/-- Under the cap lock one more sum is read. -/
theorem reading (h : Current limits w i (.request x stage))
    (hreads : stage'.reads x = stage.reads x ++ [p]) (hadm : stage'.admission = stage.admission)
    (hcap : Session.capped (.request x stage) = true) (hp : total w.db p.1 ≤ p.2) :
    Current limits { w with flight := w.flight.put i (.request x stage') } i
      (.request x stage') where
  amount := h.amount
  now := h.now
  facts := h.facts
  limits := by
    intro l hl
    rw [Session.limits, hadm] at hl
    exact h.limits l hl
  held := fun _ => Flight.holds_put.2 (h.held hcap)
  read := by
    intro q hq
    rw [Session.reads, hreads] at hq
    rcases mem_concat.1 hq with hq | rfl
    · exact h.read q hq
    · exact hp
  start := rfl

/-- A statement of a request: locks are gained, and what it read holds. -/
theorem nextRequest (h : Current limits w i (.request x stage))
    (hnext : x.next i w.db w.flight stage = .ok (f, stage')) :
    Flight.Grown w.flight f ∧
      Current limits { w with flight := f.put i (.request x stage') } i (.request x stage') := by
  cases stage with
  | asked =>
    simp only [Asked.next] at hnext
    split at hnext
    · cases hnext
      exact ⟨.refl _, h.unread rfl (by simp [Session.capped]) (by simp [Stage.admission])⟩
    · simp only [ok_iff] at hnext
      obtain ⟨f', hheld, rfl, rfl⟩ := hnext
      exact ⟨Flight.hold_grown hheld, h.unread rfl (by simp [Session.capped]) (by simp [Stage.admission])⟩
  | userHeld =>
    simp only [Asked.next, ok_iff] at hnext
    obtain ⟨converted, -, gate, hgate, rfl, rfl⟩ := hnext
    cases gate with
    | refused =>
      exact ⟨.refl _, h.unread rfl (by simp [Session.capped, Gate.stage])
        (by simp [Stage.admission, Gate.stage])⟩
    | admitted =>
      refine ⟨.refl _, h.unread rfl (by simp [Session.capped, Gate.stage]) fun a' ha' => ?_⟩
      cases ha'
      exact under_eq h.facts (Asked.gate_limits hgate)
  | refused | hotRead => cases hnext
  | admitted =>
    simp only [Asked.next, ok_iff] at hnext
    obtain ⟨f', hheld, rfl, rfl⟩ := hnext
    refine ⟨Flight.hold_grown hheld, h.unread rfl (fun _ => Flight.hold_holds hheld) fun a' ha' => ?_⟩
    exact h.limits _ (congrArg (Option.map Admitted.limits) ha')
  | capHeld =>
    simp only [Asked.next, ok_iff] at hnext
    obtain ⟨u, hu, rfl, rfl⟩ := hnext
    exact ⟨.refl _, h.reading rfl rfl rfl (sumOf_eq_ok hu)⟩
  | userRead =>
    simp only [Asked.next, ok_iff] at hnext
    obtain ⟨v, hv, rfl, rfl⟩ := hnext
    exact ⟨.refl _, h.reading rfl rfl rfl (sumOf_eq_ok hv)⟩
  | destRead =>
    simp only [Asked.next, ok_iff] at hnext
    obtain ⟨hot, hhot, rfl, rfl⟩ := hnext
    exact ⟨.refl _, h.reading rfl rfl rfl (sumOf_eq_ok hhot)⟩

theorem nextApproval {stage stage' : ApprovalStage}
    (h : Current limits w i (.approval facts a stage))
    (hnext : approvalNext facts i w.db w.flight stage = .ok (f, stage')) :
    Flight.Grown w.flight f ∧
      Current limits { w with flight := f.put i (.approval facts a stage') } i
        (.approval facts a stage') := by
  cases stage with
  | gated =>
    simp only [approvalNext, ok_iff] at hnext
    obtain ⟨f', hheld, rfl, rfl⟩ := hnext
    exact ⟨Flight.hold_grown hheld, h.amount, h.now, h.facts, h.limits,
      fun _ => Flight.holds_put.2 (Flight.hold_holds hheld), (by rintro _ ⟨⟩), h.start⟩
  | capHeld =>
    simp only [approvalNext, ok_iff] at hnext
    obtain ⟨used, hused, rfl, rfl⟩ := hnext
    refine ⟨.refl _, h.amount, h.now, h.facts, h.limits, fun _ => h.held rfl, ?_, h.start⟩
    intro p hp
    obtain rfl := List.mem_singleton.1 hp
    exact (financeApproveSumSince_eq_ok hused).ge
  | usedRead => cases hnext

theorem next {s' : Session} (h : Current limits w i s)
    (hnext : s.next i w.db w.flight = .ok (f, s')) :
    Flight.Grown w.flight f ∧ Current limits { w with flight := f.put i s' } i s' := by
  cases s with
  | request =>
    simp only [Session.next, ok_iff] at hnext
    obtain ⟨⟨f', stage'⟩, hnext, rfl, rfl⟩ := hnext
    exact h.nextRequest hnext
  | approval =>
    simp only [Session.next, ok_iff] at hnext
    obtain ⟨⟨f', stage'⟩, hnext, rfl, rfl⟩ := hnext
    exact h.nextApproval hnext

end Current

/-! ### What a commit writes -/

variable {r : WithdrawalReceipt}

theorem Asked.converted_spec (h : x.converted db = .ok db') :
    db'.withdrawals = db.withdrawals ∧ db'.events = db.events := by
  unfold converted at h
  split at h
  · cases h
    exact ⟨rfl, rfl⟩
  · simp only [convertForWithdraw, ok_iff] at h
    obtain ⟨_, -, rfl⟩ := h
    exact ⟨rfl, rfl⟩

/-- Nothing a window measures was written. -/
structure Unmoved (db db' : MoneyDb) : Prop where
  withdrawals : db'.withdrawals = db.withdrawals
  events : db'.events = db.events

theorem Asked.refuseWith_unmoved {code message : String} (hmid : x.converted db = .ok mid)
    (h : x.refuseWith code message mid = .ok (r, db')) :
    Unmoved db db' where
  withdrawals := (congrArg MoneyDb.withdrawals (persistReceipt_spec h)).trans (converted_spec hmid).1
  events := (congrArg MoneyDb.events (persistReceipt_spec h)).trans (converted_spec hmid).2

/-- A row of the request was added. -/
structure Added (x : Asked) (db : MoneyDb) (row : WithdrawalRow) (db' : MoneyDb) : Prop where
  withdrawals : db'.withdrawals = db.withdrawals ++ [row]
  fresh : row.id ∉ db.withdrawals.map WithdrawalRow.id
  user : row.user = x.cmd.user
  dest : row.dest = x.dest
  amount : row.amountMicro = x.cmd.amountMicro
  events : ∃ more, db'.events = db.events ++ more ∧ ∀ e ∈ more, e.kind ≠ "finance-approve"

theorem Asked.placeHold_added {limits : WithdrawLimits} {view : UserMoneyView}
    (hmid : x.converted db = .ok mid)
    (h : placeHold x.facts x.cmd x.dest x.fingerprint limits view mid = .ok (r, db')) :
    ∃ row, Added x db row db' := by
  obtain ⟨hrows, hevents⟩ := converted_spec hmid
  simp only [placeHold, MoneyDb.applyHold, MoneyDb.insertWithdrawal, ok_iff] at h
  obtain ⟨_, -, reasons, -, _, ⟨_, -, rfl⟩, _, ⟨_, hfresh, rfl⟩, h⟩ := h
  refine ⟨requestedRow x.facts x.cmd x.dest x.fingerprint reasons,
    ⟨?_, ?_, rfl, rfl, rfl, _, (congrArg MoneyDb.events (persistReceipt_spec h)).trans (congrArg (· ++ _) hevents), ?_⟩⟩
  · rw [congrArg MoneyDb.withdrawals (persistReceipt_spec h), ← hrows]
    rfl
  · rwa [← hrows]
  · intro e he
    rw [List.mem_singleton.1 he]
    simp

namespace Added

theorem windowTotal_eq (h : Added x db row db') (s : Scope) (since : Instant) :
    db'.windowTotal s since = db.windowTotal s since + weight s since row := by
  rw [MoneyDb.windowTotal, h.withdrawals, List.map_append, List.sum_append, MoneyDb.windowTotal]
  simp

theorem approvedTotal_eq (h : Added x db row db') (since : Instant) :
    db'.approvedTotal since = db.approvedTotal since := by
  have hframe : Beside db { db with events := db'.events } := ⟨rfl, h.events⟩
  exact hframe.approvedTotal_eq since

theorem tidy (h : Added x db row db') (hamount : 0 ≤ x.cmd.amountMicro) (htidy : Tidy db) :
    Tidy db' where
  ids := by
    rw [h.withdrawals, List.map_append, List.map_singleton, ← List.concat_eq_append]
    exact htidy.ids.concat h.fresh
  amounts := by
    intro r hr
    rw [h.withdrawals] at hr
    rcases mem_concat.1 hr with hr | rfl
    · exact htidy.amounts r hr
    · rwa [h.amount]
  approvals := by
    have hframe : Beside db { db with events := db'.events } := ⟨rfl, h.events⟩
    exact (hframe.tidy (.same rfl) htidy).approvals

end Added

theorem cas_rowStep {id : WithdrawalId} {expected : Combo} {next : WithdrawalRow}
    (hcounts : expected.countsInDailyWindow = true)
    (h : db.casWithdrawal id expected next = .ok db') : RowStep db db' := by
  simp only [MoneyDb.casWithdrawal, not_not, ok_iff] at h
  obtain ⟨_, hcombo, rfl⟩ := h
  obtain ⟨row, hfound, rfl⟩ := Option.map_eq_some_iff.1 hcombo
  obtain rfl : row.id = id := key_of_find hfound
  exact .moved row next ⟨hfound, rfl⟩ hcounts

/-- The event of an approval, and the row moved. -/
structure Approved (facts : MoneyFacts) (a : Approval) (db db' : MoneyDb) : Prop where
  rows : RowStep db db'
  frame : Beside
    (db.appendEvent facts a.row.id "finance-approve" "finance" (some a.row.amountMicro)) db'

theorem Approval.settle_approved {r : WithdrawalRow} (hcounts : a.start.countsInDailyWindow = true)
    (h : a.settle facts used db = .ok (r, db')) :
    saturatingAdd used a.row.amountMicro ≤ a.limits.approveDailyCapMicro ∧
      Approved facts a db db' := by
  simp only [settle, not_lt, ok_iff] at h
  obtain ⟨_, hcap, confirmed, hconf, hdecided⟩ := h
  have hsaved : Beside (db.appendEvent facts a.row.id "finance-approve" "finance"
      (some a.row.amountMicro)) confirmed ∧ confirmed.withdrawals = db.withdrawals := by
    unfold saveConfirmed at hconf
    split at hconf
    · cases hconf
      exact ⟨.refl _, rfl⟩
    · exact ⟨.saveProposal (mapError_eq_ok.1 hconf),
        (Aside.saveProposal (mapError_eq_ok.1 hconf)).withdrawals⟩
  refine ⟨hcap, ?_, hsaved.1.trans (.decided hdecided)⟩
  simp only [decided, ok_iff] at hdecided
  obtain ⟨swapped, hswap, -, rfl⟩ := hdecided
  exact (cas_rowStep hcounts hswap).congr hsaved.2 rfl

namespace Approved

theorem ids (h : Approved facts a db db') :
    db'.withdrawals.map WithdrawalRow.id = db.withdrawals.map WithdrawalRow.id := h.frame.ids

theorem approvedTotal_le (h : Approved facts a db db') (hamount : 0 ≤ a.row.amountMicro)
    (since : Instant) :
    db'.approvedTotal since ≤ db.approvedTotal since + a.row.amountMicro := by
  rw [h.frame.approvedTotal_eq, MoneyDb.approvedTotal, MoneyDb.appendEvent, List.map_append,
    List.sum_append, MoneyDb.approvedTotal]
  have hevent : approval since { withdrawal := a.row.id, kind := "finance-approve"
                                 actor := "finance", recordedAt := facts.dbNow
                                 amountMicro := some a.row.amountMicro } ≤ a.row.amountMicro := by
    unfold approval
    split_ifs
    · exact le_rfl
    · exact hamount
  simpa using hevent

theorem tidy (h : Approved facts a db db') (hamount : 0 ≤ a.row.amountMicro) (htidy : Tidy db) :
    Tidy db' where
  ids := h.ids ▸ htidy.ids
  amounts := h.rows.amounts htidy h.ids
  approvals := by
    obtain ⟨more, hmore, hkind⟩ := h.frame.events
    intro e he hk
    rw [hmore, MoneyDb.appendEvent] at he
    rcases List.mem_append.1 he with he | he
    · rcases mem_concat.1 he with he | rfl
      · exact htidy.approvals e he hk
      · exact hamount
    · exact absurd hk (hkind e he)

end Approved

/-! ### Caps -/

/-- Limits as the catalog of settings admits them. -/
structure Catalogued (limits : WithdrawLimits) : Prop where
  daily : ∃ snap, Config.checkWithdrawDaily "withdraw_daily_limit_micro"
    (.int limits.dailyMicro) snap = .ok ()
  dest : ∃ snap, Config.checkDestDaily "dest_daily_limit_micro"
    (.int limits.destDailyMicro) snap = .ok ()
  hot : ∃ snap, Config.checkHotWallet "hot_wallet_daily_limit_micro"
    (.int limits.hotDailyMicro) snap = .ok ()
  approve : ∃ snap, Config.checkApproveDaily "withdraw_approve_daily_cap_micro"
    (.int limits.approveDailyCapMicro) snap = .ok ()

theorem checkFactor_bounds {prior key : String} {lo hi factor seed n : Int} {snap : Config.Snapshot}
    (h : Config.checkFactor prior lo hi factor seed key (.int n) snap = .ok ()) :
    lo ≤ n ∧ n ≤ hi := by
  simp only [Config.checkFactor, Config.asInteger, Config.bounded, not_or, not_lt, ok_iff] at h
  obtain ⟨m, hm, _, ⟨hlo, hhi⟩, -⟩ := h
  obtain rfl : n = m := (Checked.tryI64_eq_some.1 hm).1
  exact ⟨hlo, hhi⟩

/-- Every cap lies far below the end of the 64-bit range. -/
theorem Catalogued.bounds {limits : WithdrawLimits} (h : Catalogued limits) :
    limits.dailyMicro < 9223372036854775807 ∧ limits.destDailyMicro < 9223372036854775807 ∧
      limits.hotDailyMicro < 9223372036854775807 ∧
      limits.approveDailyCapMicro < 9223372036854775807 ∧ 0 ≤ limits.approveDailyCapMicro := by
  obtain ⟨_, hdaily⟩ := h.daily
  obtain ⟨_, hdest⟩ := h.dest
  obtain ⟨_, hhot⟩ := h.hot
  obtain ⟨_, happrove⟩ := h.approve
  have h₁ := checkFactor_bounds hdaily
  have h₂ := checkFactor_bounds hdest
  have h₃ := checkFactor_bounds hhot
  have h₄ := checkFactor_bounds happrove
  omega

/-- At the moment `now` the row's user, its destination and the hot wallet are within
their limits over the trailing 24 hours. -/
structure WithinCaps (limits : WithdrawLimits) (db : MoneyDb) (row : WithdrawalRow)
    (now : Instant) : Prop where
  user : db.windowTotal (.user row.user) (now - hours 24) ≤ limits.dailyMicro
  dest : db.windowTotal (.dest row.dest) (now - hours 24) ≤ limits.destDailyMicro
  hot : db.windowTotal .hot (now - hours 24) ≤ limits.hotDailyMicro

/-- What a commit leaves: sums under another lock have not grown, what was approved is
within its cap, and so is every row that was added. -/
structure Written (limits : WithdrawLimits) (w : World) (s : Session) (db' : MoneyDb) : Prop where
  tidy : Tidy db'
  others : ∀ m : Measure, m.lock ≠ s.lock ∨ s.capped = false → total db' m ≤ total w.db m
  approved : db'.approvedTotal (w.clock - hours 24) ≤ limits.approveDailyCapMicro
  accepted : ∀ row ∈ db'.withdrawals, row.id ∉ w.db.withdrawals.map WithdrawalRow.id →
    WithinCaps limits db' row w.clock

section Written

variable {limits : WithdrawLimits} (htidy : Tidy w.db)
  (happroved : w.db.approvedTotal (w.clock - hours 24) ≤ limits.approveDailyCapMicro)
include htidy happroved

theorem Unmoved.written (h : Unmoved w.db db') (s : Session) : Written limits w s db' where
  tidy := ⟨h.withdrawals ▸ htidy.ids, h.withdrawals ▸ htidy.amounts, h.events ▸ htidy.approvals⟩
  others := by
    intro m _
    cases m with
    | window =>
      rw [total, total, MoneyDb.windowTotal, h.withdrawals, MoneyDb.windowTotal]
    | approved =>
      rw [total, total, MoneyDb.approvedTotal, h.events, MoneyDb.approvedTotal]
  approved := by
    rwa [MoneyDb.approvedTotal, h.events]
  accepted := by
    intro row hrow hnew
    rw [h.withdrawals] at hrow
    exact absurd (List.mem_map_of_mem hrow) hnew

/-- The accepted row fits under each limit by the sums that were read. -/
theorem Added.written {a : Admitted} {u v hot : Int} (hcat : Catalogued limits)
    (h : Added x w.db row db') (hcurrent : Current limits w i (.request x (.hotRead a u v hot)))
    (hfits : saturatingAdd u x.cmd.amountMicro ≤ a.limits.dailyMicro ∧
      saturatingAdd v x.cmd.amountMicro ≤ a.limits.destDailyMicro ∧
      saturatingAdd hot x.cmd.amountMicro ≤ a.limits.hotDailyMicro) :
    Written limits w (.request x (.hotRead a u v hot)) db' := by
  have hamount : 0 ≤ x.cmd.amountMicro := hcurrent.amount
  have htidy' := h.tidy hamount htidy
  refine ⟨htidy', ?_, ?_, ?_⟩
  · intro m hm
    cases m with
    | window => simp [Measure.lock, Session.lock, Session.capped] at hm
    | approved since => exact (h.approvedTotal_eq since).le
  · rwa [h.approvedTotal_eq]
  · intro r hr hnew
    obtain rfl : r = row := by
      rw [h.withdrawals] at hr
      rcases List.mem_append.1 hr with hr | hr
      · exact absurd (List.mem_map_of_mem hr) hnew
      · exact List.mem_singleton.1 hr
    have hlater : x.since ≤ w.clock - hours 24 := Int.sub_le_sub_right hcurrent.now _
    have hsum {scope : Scope} {sum limit : Int}
        (hread : (Measure.window scope x.since, sum) ∈ Stage.reads x (.hotRead a u v hot))
        (hlimit : limit < 9223372036854775807)
        (hfit : saturatingAdd sum x.cmd.amountMicro ≤ limit) :
        db'.windowTotal scope (w.clock - hours 24) ≤ limit := by
      have hmono := htidy'.windowTotal_mono scope hlater
      have hadd := h.windowTotal_eq scope x.since
      have hweight : weight scope x.since r ≤ r.amountMicro :=
        weight_le (by rw [h.amount]; exact hamount)
      have hsumread : w.db.windowTotal scope x.since ≤ sum := hcurrent.read _ hread
      have hadded := le_of_saturatingAdd hlimit hfit
      rw [h.amount] at hweight
      omega
    obtain rfl : a.limits = limits := hcurrent.limits _ rfl
    obtain ⟨hdaily, hdest, hhot, -, -⟩ := hcat.bounds
    refine ⟨?_, ?_, ?_⟩
    · rw [h.user]
      exact hsum (by simp [Stage.reads]) hdaily hfits.1
    · rw [h.dest]
      exact hsum (by simp [Stage.reads]) hdest hfits.2.1
    · exact hsum (by simp [Stage.reads]) hhot hfits.2.2

omit happroved in
/-- The approval fits under its cap by the sum that was read. -/
theorem Approved.written (hcat : Catalogued limits) (h : Approved facts a w.db db')
    (hcurrent : Current limits w i (.approval facts a (.usedRead used)))
    (hfits : saturatingAdd used a.row.amountMicro ≤ a.limits.approveDailyCapMicro) :
    Written limits w (.approval facts a (.usedRead used)) db' := by
  have hamount : 0 ≤ a.row.amountMicro := hcurrent.amount
  have htidy' := h.tidy hamount htidy
  refine ⟨htidy', ?_, ?_, ?_⟩
  · intro m hm
    cases m with
    | window s since => exact h.rows.windowTotal_le htidy h.ids s since
    | approved => simp [Measure.lock, Session.lock, Session.capped] at hm
  · obtain rfl : a.limits = limits := hcurrent.limits _ rfl
    have hlater : facts.now - hours 24 ≤ w.clock - hours 24 := Int.sub_le_sub_right hcurrent.now _
    have hmono := htidy'.approvedTotal_mono hlater
    have hadd := h.approvedTotal_le hamount (facts.now - hours 24)
    have hread : w.db.approvedTotal (facts.now - hours 24) ≤ used :=
      hcurrent.read _ List.mem_cons_self
    have hadded := le_of_saturatingAdd hcat.bounds.2.2.2.1 hfits
    omega
  · intro row hrow hnew
    rw [← h.ids] at hnew
    exact absurd (List.mem_map_of_mem hrow) hnew

theorem Session.write_written (hcat : Catalogued limits) (hcurrent : Current limits w i s)
    (h : s.write w.db = .ok db') : Written limits w s db' := by
  cases s with
  | request x stage =>
    cases stage with
    | refused =>
      simp only [write, ok_iff] at h
      obtain ⟨mid, hmid, ⟨r, db⟩, hwrite, rfl⟩ := h
      exact (Asked.refuseWith_unmoved hmid hwrite).written htidy happroved _
    | hotRead =>
      simp only [write, ok_iff] at h
      obtain ⟨mid, hmid, ⟨r, db⟩, hwrite, rfl⟩ := h
      unfold Asked.settle at hwrite
      split_ifs at hwrite with hfits
      · obtain ⟨row, hadded⟩ := Asked.placeHold_added hmid hwrite
        exact hadded.written htidy happroved hcat hcurrent hfits
      · exact (Asked.refuseWith_unmoved hmid hwrite).written htidy happroved _
    | asked | userHeld | admitted | capHeld | userRead | destRead => cases h
  | approval facts a stage =>
    cases stage with
    | gated | capHeld => cases h
    | usedRead =>
      simp only [write, ok_iff] at h
      obtain ⟨⟨r, db⟩, hwrite, rfl⟩ := h
      obtain ⟨hfits, happ⟩ := Approval.settle_approved hcurrent.start hwrite
      exact happ.written htidy hcat hcurrent hfits

end Written

/-! ### Runs -/

structure Sound (limits : WithdrawLimits) (w : World) : Prop where
  safe : Safe w.flight.locks
  tidy : Tidy w.db
  approved : w.db.approvedTotal (w.clock - hours 24) ≤ limits.approveDailyCapMicro
  sessions : ∀ i s, w.flight.session i = some s → Current limits w i s

theorem sound_start {limits : WithdrawLimits} (hcat : Catalogued limits) (now : Instant) :
    Sound limits (.start now) where
  safe := List.forall_mem_nil _
  tidy := ⟨List.nodup_nil, List.forall_mem_nil _,
    List.forall_mem_nil _⟩
  approved := hcat.bounds.2.2.2.2
  sessions := fun _ _ hs => by cases hs

inductive Moved (d : Digests) (w : World) : Action → World → Prop
  | ticked (now : Instant) (later : w.clock ≤ now) : Moved d w (.tick now) { w with clock := now }
  | asked (i : Nat) (facts : RequestFacts) (cmd : RequestWithdrawCmd) (x : Asked)
      (loaded : x.facts = facts) (clock : facts.money.now = w.clock)
      (positive : 0 < x.cmd.amountMicro) :
      Moved d w (.ask i facts cmd) { w with flight := w.flight.put i (.request x .asked) }
  | approving (i : Nat) (facts : MoneyFacts) (actor : AdminContext) (id : WithdrawalId)
      (user : UserId) (cmd : DecideCmd) (f : Sessions) (row : WithdrawalRow) (a : Approval)
      (clock : facts.now = w.clock) (held : w.flight.hold i (.user user) = (.ok f : Except Halt _))
      (found : lockedRow id user w.db = .ok row)
      (gated : approvalGate d facts actor cmd row w.db = .ok a) :
      Moved d w (.approve i facts actor id user cmd)
        { w with flight := f.put i (.approval facts a .gated) }
  | went (i : Nat) (s s' : Session) (f : Sessions) (found : w.flight.session i = some s)
      (next : s.next i w.db w.flight = .ok (f, s')) :
      Moved d w (.advance i) { w with flight := f.put i s' }
  | committed (i : Nat) (s : Session) (db : MoneyDb) (found : w.flight.session i = some s)
      (written : s.write w.db = .ok db) :
      Moved d w (.commit i) { w with db := db, flight := w.flight.finish i }
  | aborted (i : Nat) : Moved d w (.abort i) { w with flight := w.flight.finish i }
  | elsewhere (c : Command) (db : MoneyDb) (aside : c.aside = true)
      (stepped : w.db.step d c = .ok db) : Moved d w (.elsewhere c) { w with db := db }

variable {d : Digests}

theorem World.step_moved {a : Action} (h : w.step d a = .ok w') : Moved d w a w' := by
  cases a with
  | tick now =>
    simp only [step, not_lt, ok_iff] at h
    obtain ⟨_, hlater, rfl⟩ := h
    exact .ticked now hlater
  | ask i facts cmd =>
    simp only [step, not_not, not_le, ok_iff] at h
    obtain ⟨_, -, _, hclock, dest, -, _, hpositive, rfl⟩ := h
    exact .asked i facts cmd _ rfl hclock hpositive
  | approve i facts actor id user cmd =>
    simp only [step, not_not, ok_iff] at h
    obtain ⟨_, -, f, hheld, _, hclock, row, hrow, a, ha, rfl⟩ := h
    exact .approving i facts actor id user cmd f row a hclock hheld hrow ha
  | advance i =>
    simp only [step, ok_iff] at h
    obtain ⟨s, hs, ⟨f, s'⟩, hnext, rfl⟩ := h
    exact .went i s s' f hs hnext
  | commit i =>
    simp only [step, ok_iff] at h
    obtain ⟨s, hs, db, hdb, rfl⟩ := h
    exact .committed i s db hs hdb
  | abort i =>
    cases h
    exact .aborted i
  | elsewhere c =>
    simp only [step, Bool.not_eq_false, ok_iff] at h
    obtain ⟨_, haside, db, hdb, rfl⟩ := h
    exact .elsewhere c db haside hdb

/-- The gates approve a held row under the limits they load. -/
theorem approvalGate_spec {actor : AdminContext} {cmd : DecideCmd}
    (h : approvalGate d facts actor cmd row db = .ok a) :
    a.row = row ∧ facts.limits = .ok a.limits ∧ a.start.countsInDailyWindow = true := by
  cases cmd with
  | financeApprove =>
    simp only [approvalGate, gateFinance, ok_iff] at h
    obtain ⟨_, -, _, -, _, -, limits, hlimits, _, -, view, -, live, -, _, -, rfl⟩ := h
    exact ⟨rfl, hlimits, rfl⟩
  | confirmDual =>
    simp only [approvalGate, gateConfirm, ok_iff] at h
    obtain ⟨_, -, _, -, confirmer, -, p, -, _, -, _, -, _, -, _, -, limits, hlimits, view, -,
      live, -, _, -, rfl⟩ := h
    exact ⟨rfl, hlimits, rfl⟩
  | machine | proposeDual | expireProposal | deny => cases h

namespace Sound

variable {limits : WithdrawLimits}

theorem put (h : Sound limits w) (hgrown : Flight.Grown w.flight f)
    (hcurrent : Current limits { w with flight := f.put i s } i s) :
    Sound limits { w with flight := f.put i s } where
  safe := hgrown.safe h.safe
  tidy := h.tidy
  approved := h.approved
  sessions := hgrown.forall_put hcurrent fun j t ht =>
    (h.sessions j t ht).carry le_rfl (fun k hk => Flight.holds_put.2 (hgrown.keeps j k hk))
      fun _ _ => le_rfl

theorem finish (h : Sound limits w) (i : Nat) :
    Sound limits { w with flight := w.flight.finish i } where
  safe := h.safe.release i
  tidy := h.tidy
  approved := h.approved
  sessions := by
    intro j t ht
    obtain ⟨hji, ht⟩ := Flight.session_of_finish ht
    exact (h.sessions j t ht).carry le_rfl (fun k hk => Flight.holds_finish hji hk)
      fun _ _ => le_rfl

/-- New tables under which no sum read by a session has grown. -/
theorem replace (h : Sound limits w) (htidy : Tidy db)
    (happroved : db.approvedTotal (w.clock - hours 24) ≤ limits.approveDailyCapMicro)
    (htotal : ∀ j t, w.flight.session j = some t → ∀ p ∈ t.reads, total db p.1 ≤ total w.db p.1) :
    Sound limits { w with db := db } where
  safe := h.safe
  tidy := htidy
  approved := happroved
  sessions := fun j t ht => (h.sessions j t ht).carry le_rfl (fun _ => id) (htotal j t ht)

/-- A commit: whoever else read one of the sums it raises would hold the same cap lock. -/
theorem commit (h : Sound limits w) (hs : w.flight.session i = some s)
    (hwritten : Written limits w s db) :
    Sound limits { w with db := db, flight := w.flight.finish i } := by
  refine Sound.replace (h.finish i) hwritten.tidy hwritten.approved fun j t ht p hp => ?_
  have htj := Flight.session_of_finish ht
  obtain ⟨hlock, hcapped⟩ := Session.lock_of_mem_reads hp
  refine hwritten.others p.1 ?_
  by_cases hcap : s.capped = true
  · refine Or.inl fun heq => htj.1 ?_
    have hi := (h.sessions i s hs).held hcap
    have hj := (h.sessions j t htj.2).held hcapped
    rw [← heq, hlock] at hi
    exact h.safe.owner_eq hj hi
  · exact Or.inr (Bool.eq_false_iff.2 hcap)

end Sound

theorem step_sound {limits : WithdrawLimits} (hcat : Catalogued limits) {a : Action}
    (h : Sound limits w) (hunder : a.under limits = true) (hstep : w.step d a = .ok w') :
    Sound limits w' := by
  cases World.step_moved hstep with
  | ticked now later =>
    have hlater : w.clock - hours 24 ≤ now - hours 24 := Int.sub_le_sub_right later _
    exact ⟨h.safe, h.tidy, (h.tidy.approvedTotal_mono hlater).trans h.approved,
      fun j t ht => (h.sessions j t ht).carry later (fun _ => id) fun _ _ => le_rfl⟩
  | asked i facts cmd x loaded clock positive =>
    subst loaded
    exact h.put (.refl _) ⟨positive.le, clock.le, hunder, by simp [Session.limits, Stage.admission],
      by simp [Session.capped], by simp [Session.reads, Stage.reads], rfl⟩
  | approving i facts actor id user cmd f row a clock held found gated =>
    obtain ⟨rfl, hlimits, hstart⟩ := approvalGate_spec gated
    refine h.put (Flight.hold_grown held) ⟨h.tidy.found (lockedRow_spec found).1, clock.le, hunder,
      ?_, by simp [Session.capped], by simp [Session.reads], hstart⟩
    intro l hl
    cases hl
    exact under_eq hunder hlimits
  | went i s s' f found next =>
    obtain ⟨hgrown, hcurrent⟩ := (h.sessions i s found).next next
    exact h.put hgrown hcurrent
  | committed i s db found written =>
    exact h.commit found
      (Session.write_written h.tidy h.approved hcat (h.sessions i s found) written)
  | aborted i => exact h.finish i
  | elsewhere c db aside stepped =>
    have hbeside := MoneyDb.step_beside aside stepped
    have hrows := (MoneyDb.step_effect stepped).rowStep
    refine h.replace (hbeside.tidy hrows h.tidy) ?_ fun j t ht p hp => ?_
    · rw [hbeside.approvedTotal_eq]
      exact h.approved
    · cases hm : p.1 with
      | window s since => exact hrows.windowTotal_le h.tidy hbeside.ids s since
      | approved since => exact (hbeside.approvedTotal_eq since).le

/-- Only the commit of a request adds a row. -/
theorem accepted_within {limits : WithdrawLimits} (hcat : Catalogued limits) {a : Action}
    (h : Sound limits w) (hstep : w.step d a = .ok w') (hrow : row ∈ w'.db.withdrawals)
    (hnew : row.id ∉ w.db.withdrawals.map WithdrawalRow.id) :
    WithinCaps limits w'.db row w'.clock := by
  cases World.step_moved hstep with
  | ticked | asked | approving | went | aborted => exact absurd (List.mem_map_of_mem hrow) hnew
  | committed i s db found written =>
    exact (Session.write_written h.tidy h.approved hcat (h.sessions i s found) written).accepted
      row hrow hnew
  | elsewhere c db aside stepped =>
    rw [← (MoneyDb.step_beside aside stepped).ids] at hnew
    exact absurd (List.mem_map_of_mem hrow) hnew

/-- Under fixed limits, in every interleaving: when a row is accepted, its user, its
destination and the hot wallet are within their limits over the trailing 24 hours, and
what finance approved over the trailing 24 hours is never above its cap. -/
theorem rolling_caps_hold (d : Digests) (limits : WithdrawLimits) (hcat : Catalogued limits)
    (now : Instant) (actions : List Action) (hfixed : ∀ a ∈ actions, a.under limits = true) :
    (∀ before a later w', actions = before ++ a :: later →
      (run (World.step d) (.start now) before).step d a = .ok w' →
      ∀ row ∈ w'.db.withdrawals,
        row.id ∉ (run (World.step d) (.start now) before).db.withdrawals.map WithdrawalRow.id →
        WithinCaps limits w'.db row w'.clock) ∧
    (run (World.step d) (.start now) actions).db.approvedTotal
      ((run (World.step d) (.start now) actions).clock - hours 24) ≤
        limits.approveDailyCapMicro := by
  have hsound (taken : List Action) (htaken : ∀ a ∈ taken, a.under limits = true) :
      Sound limits (run (World.step d) (.start now) taken) :=
    run_preserves (fun a ha _ _ h hstep => step_sound hcat h (htaken a ha) hstep)
      (sound_start hcat now)
  refine ⟨?_, (hsound actions hfixed).approved⟩
  rintro before a later w' rfl hstep row hrow hnew
  exact accepted_within hcat (hsound before fun b hb => hfixed b (List.mem_append_left _ hb))
    hstep hrow hnew

/-! ### Two users, one destination -/

def sampleLimits : WithdrawLimits :=
  { minMicro := 1, maxMicro := 1000000, dailyMicro := 2000000, autoApproveMicro := 0
    dualControlMicro := 2000000, destWarmFloorMicro := 0, destWarmAgeHours := 0
    destDailyMicro := 1500000, hotDailyMicro := 3000000, withdrawKycTier := 0
    pauseWithdrawals := false, approveDailyCapMicro := 1000000 }

theorem catalogued_sample : Catalogued sampleLimits where
  daily := ⟨[], by decide +kernel⟩
  dest := ⟨[], by decide +kernel⟩
  hot := ⟨[], by decide +kernel⟩
  approve := ⟨[], by decide +kernel⟩

def sampleFacts : MoneyFacts := { replacedFacts with limits := .ok sampleLimits }

/-- The user and the destination. -/
def sampleDigests : Digests :=
  ⟨fun user _ dest => String.ofList (user.uuid.text ++ dest.toList), fun _ _ => ""⟩

def sampleFund (key : String) (user : UserId) : Action :=
  .elsewhere (.post .deposit key [⟨cash .external, -2000000⟩, ⟨cash (.user user), 2000000⟩]
    (by simp [IsWithheld, cash]))

/-- User `i` asks for one million. -/
def sampleAsk (i : Nat) : Action :=
  .ask i { money := sampleFacts, geo := .ok .hit, sanctions := .ok .hit, lots := []
           amlCandidate := .ok (), freshId := ⟨BitVec.ofNat 128 i⟩ }
    { user := ⟨BitVec.ofNat 128 i⟩, amountMicro := 1000000
      dest := "11111111111111111111111111111111", hasClientIp := true, idempotencyKey := none }

/-- Both users pass their gates; the second waits for the cap lock of the first. -/
def sampleBefore : List Action :=
  [sampleFund "one" ⟨1⟩, sampleFund "two" ⟨2⟩, sampleAsk 1, sampleAsk 2, .advance 1, .advance 2,
    .advance 1, .advance 2, .advance 1, .advance 2, .advance 1, .advance 1, .advance 1]

/-- The first is accepted, the second refused by its destination's limit, and finance
approves the first. -/
def sampleLater : List Action :=
  List.replicate 4 (.advance 2) ++ [.commit 2,
    .elsewhere (.decide sampleFacts .machine ⟨1⟩ ⟨1⟩ .machine),
    .approve 3 sampleFacts (.admin "token" .finance) ⟨1⟩ ⟨1⟩ (.financeApprove "checked"),
    .advance 3, .advance 3, .commit 3]

def sampleWorld (actions : List Action) : World :=
  run (World.step sampleDigests) (.start 20) actions

theorem sample_within_caps :
    (sampleWorld (sampleBefore ++ .commit 1 :: sampleLater)).db.withdrawals.map
      WithdrawalRow.amountMicro = [1000000] ∧
    (sampleWorld (sampleBefore ++ .commit 1 :: sampleLater)).db.approvedTotal
      ((sampleWorld (sampleBefore ++ .commit 1 :: sampleLater)).clock - hours 24) ≤
        sampleLimits.approveDailyCapMicro ∧
    ∃ w', (sampleWorld sampleBefore).step sampleDigests (.commit 1) = .ok w' ∧
      ∀ row ∈ w'.db.withdrawals,
        row.id ∉ (sampleWorld sampleBefore).db.withdrawals.map WithdrawalRow.id →
        WithinCaps sampleLimits w'.db row w'.clock := by
  have hboth := rolling_caps_hold sampleDigests sampleLimits catalogued_sample 20
    (sampleBefore ++ .commit 1 :: sampleLater) (by decide +kernel)
  have hok : ((sampleWorld sampleBefore).step sampleDigests (.commit 1)).isOk = true := by
    decide +kernel
  obtain ⟨w', hw'⟩ := exists_of_isOk hok
  refine ⟨by decide +kernel, hboth.2, w', hw', ?_⟩
  unfold sampleWorld at hw' ⊢
  exact hboth.1 sampleBefore (.commit 1) sampleLater w' rfl hw'

end Opinions.Money.Capped
