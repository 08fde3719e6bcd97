import Opinions.Compliance.Statuses

/-! Self-exclusion (`application/src/money/self_exclusion.rs`): a user starts it, and after
its cooling-off period one principal may propose to lift it and another confirm that. -/

namespace Opinions.Compliance

open Lib.Result Lib.Rows Model Trade Money Deposit Credit

def liftSelfExclusionKind : String := "lift_self_exclusion"

def SelfExclusion.starting (user : UserId) (coolingOff : Int) (now : Instant) (freshId : Uuid) :
    SelfExclusion :=
  { id := freshId, user := user, startsAt := now, coolingOffUntil := now + coolingOff
    liftedAt := none }

/-- An exclusion that is not lifted stands in the way of another, elapsed or not. -/
def startSelfExclusion (user : UserId) (coolingOff : Int) (now : Instant) (freshId : Uuid)
    (db : ComplianceDb) : Except AppError (SelfExclusion × ComplianceDb) := do
  refuse (coolingOff ≤ 0) (.adminForbidden "cooling-off must be positive")
  let _ ← (db.lockUser user).mapError .store
  refuse ((db.activeSelfExclusion user).isSome = true)
    (.adminForbidden "self-exclusion is already active")
  let exclusion := SelfExclusion.starting user coolingOff now freshId
  let started ← (db.insertSelfExclusion exclusion).mapError .store
  pure (exclusion, started)

def liftReplayKey (exclusion : Uuid) : String := liftSelfExclusionKind ++ ":" ++ uuidText exclusion

/-- The proposal to lift an exclusion; it can be confirmed at once. -/
def liftProposal (facts : StatusFacts) (digest reason : String) (exclusion : Uuid) :
    MoneyProposal :=
  newProposal liftSelfExclusionKind exclusion (facts.hash (liftReplayKey exclusion)) digest reason
    (liftReplayKey exclusion) 0 facts.now facts.freshId

def proposeLift (facts : StatusFacts) (actor : AdminContext) (exclusionId : Uuid)
    (reason : String) (db : ComplianceDb) : Except AppError (MoneyProposal × ComplianceDb) := do
  let (digest, role) ← requireAdmin actor
  requireRole role [.finance]
  requireReason reason
  let exclusion ← (db.getSelfExclusion exclusionId).mapError .store
  refuse (¬exclusion.coolingOffElapsed facts.now) (.proposalConflict "cooling-off has not elapsed")
  refuse (exclusion.liftedAt ≠ none) (.proposalConflict "already lifted")
  match db.proposalByReplay (liftReplayKey exclusion.id) with
  | some existing => pure (existing, db)
  | none => do
    let p := liftProposal facts digest reason exclusion.id
    let proposed ← (db.insertProposal p).mapError .store
    pure (p, proposed)

def confirmLift (facts : StatusFacts) (actor : AdminContext) (proposal : Uuid)
    (db : ComplianceDb) : Except AppError (SelfExclusion × ComplianceDb) := do
  let (digest, role) ← requireAdmin actor
  requireRole role [.superadmin]
  let p ← (db.proposalById proposal).mapError .store
  requireDistinctTokens p.proposerTokenId digest
  refuse (p.kind ≠ liftSelfExclusionKind) (.proposalConflict "not a lift proposal")
  refuse (p.status ≠ .pending) (.proposalConflict "proposal is not pending")
  refuse (facts.now < p.confirmNotBefore ∨ p.expiresAt < facts.now)
    (.proposalConflict "proposal not confirmable")
  let exclusion ← (db.getSelfExclusion p.subjectId).mapError .store
  refuse (¬exclusion.coolingOffElapsed facts.now) (.proposalConflict "cooling-off has not elapsed")
  let (_, confirmed) ← (db.confirmProposal proposal digest).mapError .store
  let lifted ← ((confirmed.liftSelfExclusion exclusion.id facts.now).getSelfExclusion
    exclusion.id).mapError .store
  pure (lifted, confirmed.liftSelfExclusion exclusion.id facts.now)

variable {db db' : ComplianceDb}

theorem startSelfExclusion_spec {user : UserId} {coolingOff : Int} {now : Instant} {freshId : Uuid}
    {e : SelfExclusion} (h : startSelfExclusion user coolingOff now freshId db = .ok (e, db')) :
    e = .starting user coolingOff now freshId ∧ db.unlifted user = [] ∧
      e.id ∉ db.exclusions.map SelfExclusion.id ∧
      db' = { db with exclusions := db.exclusions ++ [e] } := by
  simp only [startSelfExclusion, Option.not_isSome_iff_eq_none,
    ComplianceDb.activeSelfExclusion_eq_none, ok_iff] at h
  obtain ⟨_, -, _, -, _, hnone, _, hinsert, rfl, rfl⟩ := h
  obtain ⟨hid, rfl⟩ := ComplianceDb.insertSelfExclusion_spec hinsert
  exact ⟨rfl, hnone, hid, rfl⟩

variable {actor : AdminContext} {facts : StatusFacts}

theorem proposeLift_spec {exclusionId : Uuid} {reason : String} {p : MoneyProposal}
    (h : proposeLift facts actor exclusionId reason db = .ok (p, db')) :
    db' = db ∨ ∃ digest role exclusion, actor = .admin digest role ∧
      find SelfExclusion.id exclusionId db.exclusions = some exclusion ∧
      exclusion.coolingOffUntil ≤ facts.now ∧
      db' = { db with
        proposals := db.proposals ++ [liftProposal facts digest reason exclusionId] } := by
  simp only [proposeLift, not_not, ComplianceDb.getSelfExclusion, ok_iff] at h
  obtain ⟨⟨digest, role⟩, hadmin, _, -, _, -, e, hfound, _, helapsed, _, -, h⟩ := h
  obtain rfl : e.id = exclusionId := key_of_find hfound
  split at h
  · simp only [pure_eq_ok, Prod.mk.injEq] at h
    exact .inl h.2.symm
  · simp only [ok_iff] at h
    obtain ⟨_, hinsert, -, rfl⟩ := h
    exact .inr ⟨digest, role, e, requireAdmin_spec hadmin, hfound, helapsed,
      ComplianceDb.insertProposal_spec hinsert⟩

/-- A lift that went through: who confirmed which proposal, and when. -/
structure Lifts (db : ComplianceDb) (facts : StatusFacts) (digest : String) (p : MoneyProposal)
    (e : SelfExclusion) : Prop where
  found : find MoneyProposal.id p.id db.proposals = some p
  kind : p.kind = liftSelfExclusionKind
  pending : p.status = .pending
  distinct : p.proposerTokenId ≠ digest
  opened : p.confirmNotBefore ≤ facts.now
  unexpired : facts.now ≤ p.expiresAt
  about : find SelfExclusion.id p.subjectId db.exclusions = some e
  elapsed : e.coolingOffUntil ≤ facts.now

theorem confirmLift_spec {proposal : Uuid} {lifted : SelfExclusion}
    (h : confirmLift facts actor proposal db = .ok (lifted, db')) :
    ∃ digest role p e, actor = .admin digest role ∧ proposal = p.id ∧
      Lifts db facts digest p e ∧
      db' = (db.withConfirmer p.id digest).liftSelfExclusion e.id facts.now := by
  simp only [confirmLift, not_not, requireDistinctTokens, ComplianceDb.proposalById,
    ComplianceDb.getSelfExclusion, not_or, not_lt, ok_iff] at h
  obtain ⟨⟨digest, role⟩, hadmin, _, -, p, hfound, _, hdistinct, _, hkind, _, hpending, _,
    ⟨hopened, hunexpired⟩, e, habout, _, helapsed, ⟨_, _⟩, hconfirm, _, -, -, rfl⟩ := h
  obtain rfl : p.id = proposal := key_of_find hfound
  rw [ComplianceDb.confirmProposal_spec hconfirm]
  exact ⟨digest, role, p, e, requireAdmin_spec hadmin, rfl,
    ⟨hfound, hkind, hpending, hdistinct, hopened, hunexpired, habout, helapsed⟩, rfl⟩

end Opinions.Compliance
