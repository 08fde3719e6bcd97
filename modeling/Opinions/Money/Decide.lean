import Opinions.Money.Effect

/-! Deciding a held withdrawal (`application/src/money/withdraw_decide.rs`): the
machine pass, single finance approval, dual control through a proposal, and
denial. -/

namespace Opinions.Money

open Lib.Result Lib.Rows Model Store Trade

inductive AdminRole
  | curator
  | ops
  | finance
  | superadmin
  deriving DecidableEq

inductive AdminContext
  | machine
  | admin (tokenDigest : String) (role : AdminRole)
  deriving DecidableEq

def approveKind : String := "approve_withdrawal"

def dualDelay : Int := minutes 15

def confirmWindow : Int := minutes 15

def requireFinance (actor : AdminContext) : Except AppError Unit :=
  match actor with
  | .admin _ .finance => .ok ()
  | _ => .error (.adminForbidden "finance role required")

def requireMachine (actor : AdminContext) : Except AppError Unit :=
  refuse (actor ≠ .machine) (.adminForbidden "machine actor required")

def requireFinanceOrSuper (actor : AdminContext) : Except AppError Unit :=
  match actor with
  | .admin _ .finance | .admin _ .superadmin => .ok ()
  | _ => .error (.adminForbidden "finance or superadmin role required")

def requireReason (reason : String) : Except AppError Unit :=
  refuse (isBlank reason = true) (.adminForbidden "reason is required")

def principalDigest (actor : AdminContext) : Except AppError String :=
  match actor with
  | .admin digest _ => .ok digest
  | .machine => .error (.proposalConflict "machine actor")

/-- Reasons no approval may override. -/
def hardGate (reason : String) : Bool :=
  reason ∈ ["withdrawals_paused", "banned", "kyc_not_eligible", "aml_open", "sanctions_not_clear",
    "geo_not_clear", "self_exclusion_new_dest"]

def liveReasons (db : MoneyDb) (facts : MoneyFacts) (row : WithdrawalRow) (limits : WithdrawLimits)
    (view : UserMoneyView) : Except StoreError (List String) := do
  let flags ← facts.openAmlFlags
  let warmth ← db.destWarmth facts limits row.dest
  pure (reasonIf (limits.pauseWithdrawals = true) "withdrawals_paused" ++
    reasonIf (limits.autoApproveMicro ≤ row.amountMicro) "amount_ge_auto" ++
    reasonIf (limits.dualControlMicro ≤ row.amountMicro) "amount_ge_dual" ++
    reasonIf (view.status = .banned) "banned" ++
    reasonIf (view.status = .shadowLimited) "shadow_limited" ++
    reasonIf (view.kycTier < limits.withdrawKycTier) "kyc_not_eligible" ++
    reasonIf (0 < flags) "aml_open" ++
    reasonIf (isFreshClear facts.sanctions facts.now = false) "sanctions_not_clear" ++
    reasonIf (isFreshClear facts.geo facts.now = false) "geo_not_clear" ++
    reasonIf (warmth.isWarm limits facts.now = false) "dest_not_warm" ++
    reasonIf (2 ≤ warmth.distinctUsers) "dest_shared" ++
    reasonIf (warmth.isRefundDest = true) "dest_is_refund" ++
    reasonIf ((∃ t ∈ view.selfExcludedUntil, facts.now < t) ∧
      db.isSelfExclusionEgress facts row.user row.dest = false) "self_exclusion_new_dest")

/-- The compare-and-swap of a decision and its event. -/
def decided (facts : MoneyFacts) (start : Combo) (next : WithdrawalRow) (actor : String)
    (db : MoneyDb) : Except AppError (WithdrawalRow × MoneyDb) := do
  let db ← db.casWithdrawal next.id start next
  pure (next, db.appendEvent facts next.id "cas" actor none)

def machine (facts : MoneyFacts) (row : WithdrawalRow) (db : MoneyDb) :
    Except AppError (WithdrawalRow × MoneyDb) := do
  refuse (row.combo ≠ .w1) .illegalTransition
  let limits ← facts.limits.mapError .store
  let view ← facts.view.mapError .store
  let current ← (liveReasons db facts row limits view).mapError .store
  let tightened := unionReasons row.riskReasons current
  decided facts .w1
    { row with
      riskReasons := tightened
      decidedAt := some facts.now
      combo := if blocksAutoApprove tightened then .w4 else .w2 } "machine" db

/-- Count the approval against the daily cap and record it. -/
def consumeApprovalCap (facts : MoneyFacts) (row : WithdrawalRow) (limits : WithdrawLimits)
    (db : MoneyDb) : Except AppError MoneyDb := do
  let used ← (db.financeApproveSumSince (facts.now - hours 24)).mapError .store
  refuse (limits.approveDailyCapMicro < saturatingAdd used row.amountMicro)
    (.adminForbidden "daily finance-approve cap")
  pure (db.appendEvent facts row.id "finance-approve" "finance" (some row.amountMicro))

def financeApprove (facts : MoneyFacts) (row : WithdrawalRow) (actor : AdminContext)
    (reason : String) (db : MoneyDb) : Except AppError (WithdrawalRow × MoneyDb) := do
  requireFinance actor
  requireReason reason
  refuse (row.combo ≠ .w4) .illegalTransition
  let limits ← facts.limits.mapError .store
  refuse (limits.dualControlMicro ≤ row.amountMicro ∨ "amount_ge_dual" ∈ row.riskReasons)
    (.adminForbidden "amount requires dual-control proposal")
  let view ← facts.view.mapError .store
  let live ← (liveReasons db facts row limits view).mapError .store
  refuse (live.any hardGate || row.riskReasons.any hardGate)
    (.adminForbidden "compliance-held withdrawal requires separate clearance")
  let capped ← consumeApprovalCap facts row limits db
  decided facts .w4
    { row with
      riskReasons := unionReasons row.riskReasons live
      combo := .w2
      decidedAt := some facts.now } "finance" capped

def proposal (d : Digests) (facts : MoneyFacts) (row : WithdrawalRow) (digest reason : String)
    (freshId : Uuid) : MoneyProposal :=
  { id := freshId, kind := approveKind, subjectId := row.id.uuid
    payloadHash := d.payload row.id row.amountMicro, proposerTokenId := digest
    confirmerTokenId := none, reason := reason, status := .pending
    confirmNotBefore := facts.now + dualDelay
    expiresAt := facts.now + dualDelay + confirmWindow
    replayKey := "approve-withdrawal:" ++ String.ofList freshId.text }

def proposeDual (d : Digests) (facts : MoneyFacts) (row : WithdrawalRow) (actor : AdminContext)
    (reason : String) (freshId : Uuid) (db : MoneyDb) :
    Except AppError (WithdrawalRow × MoneyDb) := do
  requireFinance actor
  requireReason reason
  let digest ← principalDigest actor
  if row.combo = .w5 then do
    let existing ← okOr (db.openProposalFor row.id.uuid approveKind)
      (.proposalConflict "no open proposal")
    refuse (¬(existing.kind = approveKind ∧ existing.subjectId = row.id.uuid ∧
      existing.payloadHash = d.payload row.id row.amountMicro ∧
      existing.proposerTokenId = digest ∧ existing.reason = reason))
      (.proposalConflict "proposal payload mismatch")
    pure (row, db)
  else do
    refuse (row.combo ≠ .w4) .illegalTransition
    let proposed ← (db.insertProposal (proposal d facts row digest reason freshId)).mapError
      AppError.store
    decided facts .w4 { row with combo := .w5 } "propose-dual" proposed

def confirmDual (d : Digests) (facts : MoneyFacts) (row : WithdrawalRow) (actor : AdminContext)
    (db : MoneyDb) : Except AppError (WithdrawalRow × MoneyDb) := do
  requireFinanceOrSuper actor
  refuse (row.combo ≠ .w5) .illegalTransition
  let confirmer ← principalDigest actor
  let p ← okOr (db.openProposalFor row.id.uuid approveKind) (.proposalConflict "no open proposal")
  refuse (confirmer = p.proposerTokenId) (.adminForbidden "confirming token must be distinct")
  refuse (facts.now < p.confirmNotBefore) (.proposalConflict "delay has not elapsed")
  refuse (p.expiresAt ≤ facts.now) (.proposalConflict "proposal expired")
  refuse (p.kind ≠ approveKind ∨ p.payloadHash ≠ d.payload row.id row.amountMicro ∨
    p.replayKey ≠ "approve-withdrawal:" ++ String.ofList p.id.text)
    (.proposalConflict "proposal payload mismatch")
  let limits ← facts.limits.mapError .store
  let view ← facts.view.mapError .store
  let live ← (liveReasons db facts row limits view).mapError .store
  refuse (live.any hardGate = true) (.adminForbidden "current money gate blocks approval")
  let capped ← consumeApprovalCap facts row limits db
  let confirmed ← (capped.saveProposal
    { p with status := .confirmed, confirmerTokenId := some confirmer }).mapError .store
  decided facts .w5
    { row with
      riskReasons := unionReasons row.riskReasons live
      combo := .w2
      decidedAt := some facts.now } "confirm-dual" confirmed

def expireProposal (facts : MoneyFacts) (row : WithdrawalRow) (db : MoneyDb) :
    Except AppError (WithdrawalRow × MoneyDb) := do
  refuse (row.combo ≠ .w5) .illegalTransition
  let p ← okOr (db.openProposalFor row.id.uuid approveKind) (.proposalConflict "no open proposal")
  refuse (facts.now < p.expiresAt) (.proposalConflict "proposal has not expired")
  let expired ← (db.saveProposal { p with status := .expired }).mapError .store
  decided facts .w5 { row with combo := .w4 } "expire-proposal" expired

def releaseKey (id : WithdrawalId) : String := "withdraw-release:" ++ String.ofList id.uuid.text

/-- A denial rejects the row's open proposal, if there is one. -/
def rejectOpenProposal (row : WithdrawalRow) (db : MoneyDb) : Except AppError MoneyDb :=
  match db.openProposalFor row.id.uuid approveKind with
  | none => .ok db
  | some p => (db.saveProposal { p with status := .rejected }).mapError .store

def deny (facts : MoneyFacts) (row : WithdrawalRow) (actor : AdminContext) (reason : String)
    (db : MoneyDb) : Except AppError (WithdrawalRow × MoneyDb) := do
  requireFinance actor
  requireReason reason
  let target ← okOr row.combo.denyTarget .illegalTransition
  let released ← (db.applyRelease row.user row.amountMicro (releaseKey row.id)).mapError
    AppError.store
  let rejected ← rejectOpenProposal row released
  decided facts row.combo
    { row with
      releaseTx := some (releaseKey row.id)
      combo := target
      decidedAt := some facts.now } "deny" rejected

inductive DecideCmd
  | machine
  | financeApprove (reason : String)
  | proposeDual (reason : String) (freshId : Uuid)
  | confirmDual
  | expireProposal
  | deny (reason : String)

/-- The row under the lock; its owner was read before the lock was taken. -/
def lockedRow (id : WithdrawalId) (user : UserId) (db : MoneyDb) :
    Except AppError WithdrawalRow := do
  let row ← okOr (db.withdrawal id) (.store (.notFound "withdrawal"))
  refuse (row.user ≠ user) (.store (.invariant "withdrawal owner changed after user lock"))
  pure row

def decideRow (d : Digests) (facts : MoneyFacts) (actor : AdminContext) (cmd : DecideCmd)
    (row : WithdrawalRow) (db : MoneyDb) : Except AppError (WithdrawalRow × MoneyDb) :=
  match cmd with
  | .machine => do
    requireMachine actor
    machine facts row db
  | .financeApprove reason => financeApprove facts row actor reason db
  | .proposeDual reason freshId => proposeDual d facts row actor reason freshId db
  | .confirmDual => confirmDual d facts row actor db
  | .expireProposal => do
    requireMachine actor
    expireProposal facts row db
  | .deny reason => deny facts row actor reason db

def decideWithdraw (d : Digests) (facts : MoneyFacts) (actor : AdminContext) (id : WithdrawalId)
    (user : UserId) (cmd : DecideCmd) (db : MoneyDb) :
    Except AppError (WithdrawalRow × MoneyDb) := do
  let row ← lockedRow id user db
  decideRow d facts actor cmd row db

variable {db db' : MoneyDb} {r row : WithdrawalRow} {facts : MoneyFacts} {id : WithdrawalId}
  {user : UserId} {next : WithdrawalRow} {start : Combo} {d : Digests}

theorem lockedRow_spec (h : lockedRow id user db = .ok row) :
    db.withdrawal row.id = some row ∧ row.id = id := by
  simp only [lockedRow, ok_iff] at h
  obtain ⟨row', hrow, _, -, rfl⟩ := h
  have hid : row'.id = id := key_of_find hrow
  exact ⟨hid ▸ hrow, hid⟩

theorem consumeApprovalCap_aside {limits : WithdrawLimits}
    (h : consumeApprovalCap facts row limits db = .ok db') : Aside db db' := by
  simp only [consumeApprovalCap, ok_iff] at h
  obtain ⟨_, -, _, -, rfl⟩ := h
  exact ⟨rfl, rfl, rfl⟩

theorem rejectOpenProposal_aside (h : rejectOpenProposal row db = .ok db') : Aside db db' := by
  unfold rejectOpenProposal at h
  split at h
  · exact Except.ok.inj h ▸ Aside.refl db
  · exact Aside.saveProposal (mapError_eq_ok.1 h)

theorem decided_spec {actor : String} (hfound : db.withdrawal row.id = some row)
    (h : decided facts start next actor db = .ok (r, db')) (hid : next.id = row.id) :
    row.combo = start ∧ RowMoved db row next db' ∧ db'.ledger = db.ledger ∧
      db'.outbound = db.outbound := by
  simp only [decided, hid, ok_iff] at h
  obtain ⟨swapped, hswap, -, rfl⟩ := h
  obtain ⟨hcombo, rfl⟩ := casWithdrawal_spec hfound hswap
  exact ⟨hcombo, ⟨hfound, rfl⟩, rfl, rfl⟩

/-- A decision after writes beside the withdrawal is a review edge. -/
theorem decided_reviewed {actor : String} {mid : MoneyDb} (haside : Aside db mid)
    (hfound : db.withdrawal row.id = some row)
    (h : decided facts start next actor mid = .ok (r, db')) (hid : next.id = row.id)
    (hedge : Review start next.combo) (htxns : SameTxns row next) : LocalEffect db db' := by
  obtain ⟨hcombo, hmoved, hl, ho⟩ := decided_spec (haside.found.trans hfound) h hid
  have hout := ho.trans haside.outbound
  exact ⟨.reviewed row next (haside.moved hmoved) (hcombo ▸ hedge) htxns (hl.trans haside.ledger)
    hout, hout⟩

section Decisions

variable {actor : AdminContext} {reason : String} {freshId : Uuid}
  (hfound : db.withdrawal row.id = some row)
include hfound

theorem machine_effect (h : machine facts row db = .ok (r, db')) : LocalEffect db db' := by
  simp only [machine, ok_iff] at h
  obtain ⟨_, -, limits, -, view, -, current, -, h⟩ := h
  refine decided_reviewed (Aside.refl db) hfound h rfl ?_ ⟨rfl, rfl⟩
  dsimp only
  split_ifs
  · exact .hold
  · exact .approve

theorem financeApprove_effect (h : financeApprove facts row actor reason db = .ok (r, db')) :
    LocalEffect db db' := by
  simp only [financeApprove, ok_iff] at h
  obtain ⟨_, -, _, -, _, -, limits, -, _, -, view, -, live, -, _, -, capped, hcap, h⟩ := h
  exact decided_reviewed (consumeApprovalCap_aside hcap) hfound h rfl .clear ⟨rfl, rfl⟩

theorem proposeDual_effect (h : proposeDual d facts row actor reason freshId db = .ok (r, db')) :
    LocalEffect db db' := by
  simp only [proposeDual, bind_eq_ok] at h
  obtain ⟨_, -, _, -, digest, -, h⟩ := h
  split_ifs at h
  · simp only [ok_iff] at h
    obtain ⟨_, -, _, -, -, rfl⟩ := h
    exact ⟨.quiet (Frame.refl _) rfl rfl, rfl⟩
  · simp only [ok_iff] at h
    obtain ⟨_, -, proposed, hprop, h⟩ := h
    exact decided_reviewed (Aside.insertProposal hprop) hfound h rfl .propose ⟨rfl, rfl⟩

theorem confirmDual_effect (h : confirmDual d facts row actor db = .ok (r, db')) :
    LocalEffect db db' := by
  simp only [confirmDual, ok_iff] at h
  obtain ⟨_, -, _, -, confirmer, -, p, -, _, -, _, -, _, -, _, -, limits, -, view, -, live, -,
    _, -, capped, hcap, confirmed, hconf, h⟩ := h
  exact decided_reviewed ((consumeApprovalCap_aside hcap).trans (Aside.saveProposal hconf)) hfound
    h rfl .confirm ⟨rfl, rfl⟩

theorem expireProposal_effect (h : expireProposal facts row db = .ok (r, db')) :
    LocalEffect db db' := by
  simp only [expireProposal, ok_iff] at h
  obtain ⟨_, -, p, -, _, -, expired, hexp, h⟩ := h
  exact decided_reviewed (Aside.saveProposal hexp) hfound h rfl .expire ⟨rfl, rfl⟩

theorem deny_effect (h : deny facts row actor reason db = .ok (r, db')) : LocalEffect db db' := by
  simp only [deny, MoneyDb.applyRelease, ok_iff] at h
  obtain ⟨_, -, _, -, target, htarget, released, ⟨ledger, hledger, rfl⟩, rejected, hrej, h⟩ := h
  have haside := rejectOpenProposal_aside hrej
  obtain ⟨-, hmoved, hl, ho⟩ := decided_spec (haside.found.trans hfound) h rfl
  have hmoved' : RowMoved db row _ db' := ⟨hfound, haside.withdrawals ▸ hmoved.withdrawals⟩
  have hout := ho.trans haside.outbound
  refine ⟨.denied row _ hmoved' htarget ⟨⟨releaseKey row.id, rfl, ?_⟩, rfl⟩ hout, hout⟩
  rw [hl, haside.ledger]
  exact Ledger.twoLeg_spec hledger

end Decisions

theorem decideWithdraw_effect {actor : AdminContext} {cmd : DecideCmd}
    (h : decideWithdraw d facts actor id user cmd db = .ok (r, db')) : LocalEffect db db' := by
  simp only [decideWithdraw, bind_eq_ok] at h
  obtain ⟨row, hrow, h⟩ := h
  obtain ⟨hfound, -⟩ := lockedRow_spec hrow
  cases cmd with
  | machine =>
    simp only [decideRow, bind_eq_ok] at h
    obtain ⟨_, -, h⟩ := h
    exact machine_effect hfound h
  | financeApprove => exact financeApprove_effect hfound h
  | proposeDual => exact proposeDual_effect hfound h
  | confirmDual => exact confirmDual_effect hfound h
  | expireProposal =>
    simp only [decideRow, bind_eq_ok] at h
    obtain ⟨_, -, h⟩ := h
    exact expireProposal_effect hfound h
  | deny => exact deny_effect hfound h

end Opinions.Money
