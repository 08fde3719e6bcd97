import Opinions.Money.Requests
import Opinions.Money.Windows

/-! The rolling caps under concurrency (`within_limits` of `withdraw_request.rs` and
`consume_approval_cap` of `withdraw_decide.rs`). A request reads three sums in three
statements under the lock `withdraw-daily`, a finance approval reads what was approved
under `withdraw-approve-daily`. Different users share neither lock nor row; the sums are
kept honest by the cap locks alone. -/

namespace Opinions.Money.Capped

open Lib Lib.Result Domain.Ledger Model Store Trade

/-- A request past the checks of its form. -/
structure Asked where
  facts : RequestFacts
  cmd : RequestWithdrawCmd
  dest : String
  fingerprint : String

structure Admitted where
  limits : WithdrawLimits
  view : UserMoneyView

inductive Gate
  | refused (code message : String)
  | admitted (a : Admitted)

namespace Asked

/-- Admission and cash, before the caps. -/
def gate (x : Asked) (db : MoneyDb) : Except AppError Gate := do
  let limits ← x.facts.money.limits.mapError .store
  let view ← x.facts.money.view.mapError .store
  match admissionRefusal x.cmd limits view with
  | some (code, message) => pure (.refused code message)
  | none => do
    let cashBalance := db.ledger.balanceOf (cash (.user x.cmd.user))
    refuse (cashBalance < 0) (.store (.invariant "user cash account is negative"))
    if cashBalance < x.cmd.amountMicro then
      pure (.refused "insufficient_funds" "insufficient available cash")
    else pure (.admitted ⟨limits, view⟩)

def since (x : Asked) : Instant := x.facts.money.now - hours 24

def refuseWith (x : Asked) (code message : String) (db : MoneyDb) :
    Except AppError (WithdrawalReceipt × MoneyDb) :=
  persistReceipt x.cmd x.fingerprint (refusal x.cmd x.dest code message) db

/-- The three sums were read; the hold or the refusal. -/
def settle (x : Asked) (a : Admitted) (userSum destSum hotSum : Int) (db : MoneyDb) :
    Except AppError (WithdrawalReceipt × MoneyDb) :=
  if saturatingAdd userSum x.cmd.amountMicro ≤ a.limits.dailyMicro ∧
      saturatingAdd destSum x.cmd.amountMicro ≤ a.limits.destDailyMicro ∧
      saturatingAdd hotSum x.cmd.amountMicro ≤ a.limits.hotDailyMicro then
    placeHold x.facts x.cmd x.dest x.fingerprint a.limits a.view db
  else x.refuseWith "limit" "withdrawal exceeds daily or destination cap" db

def counted (x : Asked) (a : Admitted) (db : MoneyDb) :
    Except AppError (WithdrawalReceipt × MoneyDb) := do
  let userSum ← (db.windowSum (Scope.user x.cmd.user).covers x.since).mapError .store
  let destSum ← (db.windowSum (Scope.dest x.dest).covers x.since).mapError .store
  let hotSum ← (db.windowSum Scope.hot.covers x.since).mapError .store
  x.settle a userSum destSum hotSum db

theorem counted_eq (x : Asked) (a : Admitted) (db : MoneyDb) :
    (do
      let within ← (withinLimits db x.cmd x.dest a.limits x.since).mapError .store
      if within then placeHold x.facts x.cmd x.dest x.fingerprint a.limits a.view db
      else x.refuseWith "limit" "withdrawal exceeds daily or destination cap" db) =
      x.counted a db := by
  have hcovers : (fun r : WithdrawalRow => decide (r.user = x.cmd.user)) =
      (Scope.user x.cmd.user).covers := rfl
  have hcovers' : (fun r : WithdrawalRow => decide (r.dest = x.dest)) =
      (Scope.dest x.dest).covers := rfl
  have hcovers'' : (fun _ : WithdrawalRow => true) = Scope.hot.covers := rfl
  simp only [withinLimits, counted, settle, refuseWith, hcovers, hcovers', hcovers'']
  cases db.windowSum (Scope.user x.cmd.user).covers x.since with
  | error => rfl
  | ok =>
    cases db.windowSum (Scope.dest x.dest).covers x.since with
    | error => rfl
    | ok =>
      cases db.windowSum Scope.hot.covers x.since with
      | error => rfl
      | ok =>
        simp only [Except.mapError, ok_bind, pure, Except.pure, decide_eq_true_eq]

/-- The pieces in a row are the request. -/
theorem revalidateAndHold_eq (x : Asked) (db : MoneyDb) :
    revalidateAndHold x.facts x.cmd x.dest x.fingerprint db = (do
      match ← x.gate db with
      | .refused code message => x.refuseWith code message db
      | .admitted a => x.counted a db) := by
  simp only [revalidateAndHold, gate]
  cases x.facts.money.limits with
  | error => rfl
  | ok limits =>
    cases x.facts.money.view with
    | error => rfl
    | ok view =>
      simp only [Except.mapError, ok_bind]
      cases admissionRefusal x.cmd limits view with
      | some => rfl
      | none =>
        by_cases hneg : db.ledger.balanceOf (cash (.user x.cmd.user)) < 0
        · simp only [refuse_pos hneg]
          rfl
        · simp only [refuse_neg hneg]
          by_cases hshort : db.ledger.balanceOf (cash (.user x.cmd.user)) < x.cmd.amountMicro
          · simp only [if_pos hshort]
            rfl
          · simp only [if_neg hshort]
            exact counted_eq x ⟨limits, view⟩ db

end Asked

/-- What an approval writes once the cap lets it through. -/
structure Approval where
  row : WithdrawalRow
  limits : WithdrawLimits
  start : Combo
  next : WithdrawalRow
  actor : String
  confirmed : Option MoneyProposal

def gateFinance (facts : MoneyFacts) (row : WithdrawalRow) (actor : AdminContext)
    (reason : String) (db : MoneyDb) : Except AppError Approval := do
  requireFinance actor
  requireReason reason
  refuse (row.combo ≠ .w4) .illegalTransition
  let limits ← facts.limits.mapError .store
  refuse (limits.dualControlMicro ≤ row.amountMicro ∨ "amount_ge_dual" ∈ row.riskReasons)
    (.adminForbidden "amount requires dual-control proposal")
  let view ← facts.view.mapError .store
  let live ← (liveReasons db facts row limits view).mapError .store
  refuse (live.any hardGate || row.riskReasons.any hardGate)
    (.adminForbidden "compliance-held withdrawal requires separate clearance")
  pure { row := row, limits := limits, start := .w4
         next := { row with
           riskReasons := unionReasons row.riskReasons live
           combo := .w2
           decidedAt := some facts.now }
         actor := "finance", confirmed := none }

def gateConfirm (d : Digests) (facts : MoneyFacts) (row : WithdrawalRow) (actor : AdminContext)
    (db : MoneyDb) : Except AppError Approval := do
  requireFinanceOrSuper actor
  refuse (row.combo ≠ .w5) .illegalTransition
  let confirmer ← principalDigest actor
  let p ← okOr (db.openProposalFor row.id.uuid approveKind) (.proposalConflict "no open proposal")
  refuse (confirmer = p.proposerTokenId) (.adminForbidden "confirming token must be distinct")
  refuse (facts.now < p.confirmNotBefore) (.proposalConflict "delay has not elapsed")
  refuse (p.expiresAt ≤ facts.now) (.proposalConflict "proposal expired")
  refuse (p.kind ≠ approveKind ∨ p.payloadHash ≠ d.payload row.id row.amountMicro ∨
    p.replayKey ≠ "approve-withdrawal:" ++ String.ofList p.id.text)
    (.proposalConflict "proposal payload mismatch")
  let limits ← facts.limits.mapError .store
  let view ← facts.view.mapError .store
  let live ← (liveReasons db facts row limits view).mapError .store
  refuse (live.any hardGate = true) (.adminForbidden "current money gate blocks approval")
  pure { row := row, limits := limits, start := .w5
         next := { row with
           riskReasons := unionReasons row.riskReasons live
           combo := .w2
           decidedAt := some facts.now }
         actor := "confirm-dual"
         confirmed := some { p with status := .confirmed, confirmerTokenId := some confirmer } }

/-- The gates of the two commands that approve. -/
def approvalGate (d : Digests) (facts : MoneyFacts) (actor : AdminContext) (cmd : DecideCmd)
    (row : WithdrawalRow) (db : MoneyDb) : Except AppError Approval :=
  match cmd with
  | .financeApprove reason => gateFinance facts row actor reason db
  | .confirmDual => gateConfirm d facts row actor db
  | _ => .error .illegalTransition

namespace Approval

def saveConfirmed (a : Approval) (db : MoneyDb) : Except AppError MoneyDb :=
  match a.confirmed with
  | none => .ok db
  | some p => (db.saveProposal p).mapError .store

/-- The sum was read; the event and the decision, or the refusal. -/
def settle (a : Approval) (facts : MoneyFacts) (used : Int) (db : MoneyDb) :
    Except AppError (WithdrawalRow × MoneyDb) := do
  refuse (a.limits.approveDailyCapMicro < saturatingAdd used a.row.amountMicro)
    (.adminForbidden "daily finance-approve cap")
  let confirmed ← a.saveConfirmed
    (db.appendEvent facts a.row.id "finance-approve" "finance" (some a.row.amountMicro))
  decided facts a.start a.next a.actor confirmed

end Approval

/-- The pieces in a row are the approval. -/
theorem financeApprove_eq (facts : MoneyFacts) (row : WithdrawalRow) (actor : AdminContext)
    (reason : String) (db : MoneyDb) :
    financeApprove facts row actor reason db = (do
      let a ← gateFinance facts row actor reason db
      let used ← (db.financeApproveSumSince (facts.now - hours 24)).mapError .store
      a.settle facts used db) := by
  simp only [financeApprove, gateFinance, consumeApprovalCap, Approval.settle,
    Approval.saveConfirmed, bind_assoc, pure_bind]
  rfl

theorem confirmDual_eq (d : Digests) (facts : MoneyFacts) (row : WithdrawalRow)
    (actor : AdminContext) (db : MoneyDb) :
    confirmDual d facts row actor db = (do
      let a ← gateConfirm d facts row actor db
      let used ← (db.financeApproveSumSince (facts.now - hours 24)).mapError .store
      a.settle facts used db) := by
  simp only [confirmDual, gateConfirm, consumeApprovalCap, Approval.settle,
    Approval.saveConfirmed, bind_assoc, pure_bind]

inductive Lock
  | user (user : UserId)
  | cap (name : String)
  deriving DecidableEq

inductive Stage
  | asked
  | userHeld
  | refused (code message : String)
  | admitted (a : Admitted)
  | capHeld (a : Admitted)
  | userRead (a : Admitted) (userSum : Int)
  | destRead (a : Admitted) (userSum destSum : Int)
  | hotRead (a : Admitted) (userSum destSum hotSum : Int)

/-- Where an approval stands: its gates are passed under the user's lock. -/
inductive ApprovalStage
  | gated
  | capHeld
  | usedRead (used : Int)

inductive Session
  | request (x : Asked) (stage : Stage)
  | approval (facts : MoneyFacts) (a : Approval) (stage : ApprovalStage)

abbrev Sessions := Flight Session Lock

abbrev Halt := Blocked AppError

def sumOf (db : MoneyDb) (s : Scope) (since : Instant) : Except Halt Int :=
  (db.windowSum s.covers since).mapError fun e => .refused (.store e)

def Gate.stage : Gate → Stage
  | .refused code message => .refused code message
  | .admitted a => .admitted a

def Asked.next (x : Asked) (i : Nat) (db : MoneyDb) (f : Sessions) :
    Stage → Except Halt (Sessions × Stage)
  | .asked =>
    -- a screening that failed is recorded without the user's lock
    match remoteRefusal x.facts with
    | some (code, message) => .ok (f, .refused code message)
    | none => do
      let f ← f.hold i (.user x.cmd.user)
      pure (f, .userHeld)
  | .userHeld => do
    let converted ← (convertForWithdraw x.facts x.cmd x.fingerprint db).mapError .refused
    let gate ← (x.gate converted).mapError .refused
    pure (f, gate.stage)
  | .admitted a => do
    let f ← f.hold i (.cap "withdraw-daily")
    pure (f, .capHeld a)
  | .capHeld a => do
    let userSum ← sumOf db (.user x.cmd.user) x.since
    pure (f, .userRead a userSum)
  | .userRead a userSum => do
    let destSum ← sumOf db (.dest x.dest) x.since
    pure (f, .destRead a userSum destSum)
  | .destRead a userSum destSum => do
    let hotSum ← sumOf db .hot x.since
    pure (f, .hotRead a userSum destSum hotSum)
  | .refused _ _ => .error .notReady
  | .hotRead _ _ _ _ => .error .notReady

def approvalNext (facts : MoneyFacts) (i : Nat) (db : MoneyDb) (f : Sessions) :
    ApprovalStage → Except Halt (Sessions × ApprovalStage)
  | .gated => do
    let f ← f.hold i (.cap "withdraw-approve-daily")
    pure (f, .capHeld)
  | .capHeld => do
    let used ← (db.financeApproveSumSince (facts.now - hours 24)).mapError
      fun e => .refused (.store e)
    pure (f, .usedRead used)
  | .usedRead _ => .error .notReady

def Session.next (i : Nat) (db : MoneyDb) (f : Sessions) :
    Session → Except Halt (Sessions × Session)
  | .request x stage => do
    let (f, stage) ← x.next i db f stage
    pure (f, .request x stage)
  | .approval facts a stage => do
    let (f, stage) ← approvalNext facts i db f stage
    pure (f, .approval facts a stage)

/-- Lots are converted and debts collected under the user's lock, before the gates. -/
def Asked.converted (x : Asked) (db : MoneyDb) : Except AppError MoneyDb :=
  match remoteRefusal x.facts with
  | some _ => .ok db
  | none => convertForWithdraw x.facts x.cmd x.fingerprint db

/-- The writes of a transaction, which its commit makes visible. -/
def Session.write (db : MoneyDb) : Session → Except Halt MoneyDb
  | .request x (.refused code message) => do
    let converted ← (x.converted db).mapError .refused
    let written ← (x.refuseWith code message converted).mapError .refused
    pure written.2
  | .request x (.hotRead a userSum destSum hotSum) => do
    let converted ← (x.converted db).mapError .refused
    let written ← (x.settle a userSum destSum hotSum converted).mapError .refused
    pure written.2
  | .approval facts a (.usedRead used) => do
    let written ← (a.settle facts used db).mapError .refused
    pure written.2
  | _ => .error .notReady

/-- The clock every transaction reads, the committed tables, and what is in flight. -/
structure World where
  clock : Instant
  db : MoneyDb
  flight : Sessions

inductive Action
  | tick (now : Instant)
  | ask (i : Nat) (facts : RequestFacts) (cmd : RequestWithdrawCmd)
  | approve (i : Nat) (facts : MoneyFacts) (actor : AdminContext) (id : WithdrawalId)
      (user : UserId) (cmd : DecideCmd)
  | advance (i : Nat)
  | commit (i : Nat)
  | abort (i : Nat)
  /-- Another transaction of the withdrawal use cases. -/
  | elsewhere (c : Command)

namespace World

def start (now : Instant) : World := { clock := now, db := .empty, flight := .empty }

def step (d : Digests) (w : World) : Action → Except Halt World
  | .tick now => do
    refuse (now < w.clock) .notReady
    pure { w with clock := now }
  | .ask i facts cmd => do
    refuse ((w.flight.session i).isSome = true) .sessionExists
    refuse (facts.money.now ≠ w.clock) .notReady
    let dest ← okOr (canonicalizeDest cmd.dest)
      (.refused (.configInvalid "dest" "dest must be a 32-byte solana pubkey"))
    refuse (cmd.amountMicro ≤ 0) (.refused .insufficientFunds)
    let x := { facts := facts, cmd := cmd, dest := dest
               fingerprint := d.intent cmd.user cmd.amountMicro dest }
    pure { w with flight := w.flight.put i (.request x .asked) }
  | .approve i facts actor id user cmd => do
    refuse ((w.flight.session i).isSome = true) .sessionExists
    let f ← w.flight.hold i (.user user)
    refuse (facts.now ≠ w.clock) .notReady
    let row ← (lockedRow id user w.db).mapError .refused
    let a ← (approvalGate d facts actor cmd row w.db).mapError .refused
    pure { w with flight := f.put i (.approval facts a .gated) }
  | .advance i => do
    let s ← okOr (w.flight.session i) .noSession
    let (f, s) ← s.next i w.db w.flight
    pure { w with flight := f.put i s }
  | .commit i => do
    let s ← okOr (w.flight.session i) .noSession
    let db ← s.write w.db
    pure { w with db := db, flight := w.flight.finish i }
  | .abort i => .ok { w with flight := w.flight.finish i }
  | .elsewhere c => do
    refuse (c.aside = false) .notReady
    let db ← (w.db.step d c).mapError .refused
    pure { w with db := db }

end World

end Opinions.Money.Capped
