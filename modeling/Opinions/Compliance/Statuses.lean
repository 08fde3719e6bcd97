import Opinions.Compliance.Tables
import Opinions.Lib.Run

/-! Bans, unbans and shadow limits (`application/src/money/statuses.rs`). A ban or an
unban is proposed by one principal and confirmed by another after a delay; a shadow
limit is set and taken back by a single operator, and writes the same column. A ban
is lifted by two people in every run in which no shadow command meets a banned user. -/

namespace Opinions.Compliance

open Lib.Result Lib.Rows Lib.Run Model Trade Money Deposit Credit

def statusName : UserStatus → String
  | .active => "active"
  | .shadowLimited => "shadow_limited"
  | .banned => "banned"

def banDelay : Int := minutes 15

def proposalConfirmWindow : Int := minutes 15

def requireDistinctTokens (proposer confirmer : String) : Except AppError Unit :=
  refuse (proposer = confirmer) (.adminForbidden "confirmer token must be distinct from proposer")

def newProposal (kind : String) (subjectId : Uuid) (payloadHash proposer reason replayKey : String)
    (delay : Int) (now : Instant) (freshId : Uuid) : MoneyProposal :=
  { id := freshId, kind := kind, subjectId := subjectId, payloadHash := payloadHash
    proposerTokenId := proposer, confirmerTokenId := none, reason := reason, status := .pending
    confirmNotBefore := now + delay, expiresAt := now + delay + proposalConfirmWindow
    replayKey := replayKey }

def statusReplayKey (kind : String) (user : UserId) (epoch : Int) : String :=
  kind ++ ":" ++ uuidText user.uuid ++ ":" ++ decimal epoch

def statusPayload (target : UserStatus) : String :=
  "\x7b\"target\":\"" ++ statusName target ++ "\"\x7d"

def statusKind : UserStatus → Except AppError String
  | .banned => .ok "ban_user"
  | .active => .ok "unban_user"
  | .shadowLimited => .error (.adminForbidden "shadow-limit is a single-ops command")

def statusTarget (kind : String) : Except AppError UserStatus :=
  if kind = "ban_user" then .ok .banned
  else if kind = "unban_user" then .ok .active
  else .error (.proposalConflict "not a status proposal")

/-- What one status command reads beside the tables; `hash` is the digest of a payload. -/
structure StatusFacts where
  hash : String → String
  now : Instant
  freshId : Uuid

def proposeStatus (facts : StatusFacts) (actor : AdminContext) (user : UserId)
    (target : UserStatus) (reason : String) (epoch : Int) (db : ComplianceDb) :
    Except AppError (MoneyProposal × ComplianceDb) := do
  let (digest, role) ← requireAdmin actor
  requireRole role [.ops]
  requireReason reason
  let kind ← statusKind target
  let replay := statusReplayKey "user_status" user epoch
  let _ ← (db.lockUser user).mapError .store
  match db.proposalByReplay replay with
  | some existing => do
    refuse (existing.payloadHash ≠ facts.hash (statusPayload target))
      (.proposalConflict "replay key was reused with a different payload")
    pure (existing, db)
  | none => do
    let p := newProposal kind user.uuid (facts.hash (statusPayload target)) digest reason replay
      banDelay facts.now facts.freshId
    let proposed ← (db.insertProposal p).mapError .store
    pure (p, proposed)

def confirmStatus (facts : StatusFacts) (actor : AdminContext) (proposal : Uuid)
    (db : ComplianceDb) : Except AppError (UserStatus × ComplianceDb) := do
  let (digest, role) ← requireAdmin actor
  requireRole role [.superadmin]
  let p ← (db.proposalById proposal).mapError .store
  requireDistinctTokens p.proposerTokenId digest
  refuse (p.status ≠ .pending) (.proposalConflict "proposal is not pending")
  refuse (facts.now < p.confirmNotBefore) (.proposalConflict "confirm_not_before has not elapsed")
  refuse (p.expiresAt < facts.now) (.proposalConflict "proposal expired")
  let target ← statusTarget p.kind
  let _ ← (db.lockUser ⟨p.subjectId⟩).mapError .store
  let (_, confirmed) ← (db.confirmProposal proposal digest).mapError .store
  pure (target, confirmed.setUserStatus ⟨p.subjectId⟩ target)

/-- One operator limits a user or takes the limit back, whatever the user's status is. -/
def setShadow (actor : AdminContext) (user : UserId) (shadow : Bool) (reason : String)
    (db : ComplianceDb) : Except AppError (UserStatus × ComplianceDb) := do
  let (_, role) ← requireAdmin actor
  requireRole role [.ops]
  requireReason reason
  let target : UserStatus := if shadow then .shadowLimited else .active
  let _ ← (db.lockUser user).mapError .store
  pure (target, db.setUserStatus user target)

inductive StatusCommand
  | propose (facts : StatusFacts) (actor : AdminContext) (user : UserId) (target : UserStatus)
      (reason : String) (epoch : Int)
  | confirm (facts : StatusFacts) (actor : AdminContext) (proposal : Uuid)
  | setShadow (actor : AdminContext) (user : UserId) (shadow : Bool) (reason : String)

def statusStep (db : ComplianceDb) : StatusCommand → Except AppError ComplianceDb
  | .propose facts actor user target reason epoch =>
    (proposeStatus facts actor user target reason epoch db).map Prod.snd
  | .confirm facts actor proposal => (confirmStatus facts actor proposal db).map Prod.snd
  | .setShadow actor user shadow reason => (setShadow actor user shadow reason db).map Prod.snd

/-- A confirmation that went through: who confirmed which proposal, and when. -/
structure Confirms (db : ComplianceDb) (facts : StatusFacts) (digest : String)
    (p : MoneyProposal) (target : UserStatus) : Prop where
  found : find MoneyProposal.id p.id db.proposals = some p
  kind : statusTarget p.kind = .ok target
  pending : p.status = .pending
  distinct : p.proposerTokenId ≠ digest
  opened : p.confirmNotBefore ≤ facts.now
  unexpired : facts.now ≤ p.expiresAt

inductive StatusHandled (db : ComplianceDb) : StatusCommand → ComplianceDb → Prop
  | replayed (cmd : StatusCommand) : StatusHandled db cmd db
  | proposed (facts : StatusFacts) (digest : String) (role : AdminRole) (user : UserId)
      (target : UserStatus) (reason replay kind : String) (epoch : Int)
      (ofTarget : statusKind target = .ok kind) :
      StatusHandled db (.propose facts (.admin digest role) user target reason epoch)
        { db with proposals := db.proposals ++ [newProposal kind user.uuid
            (facts.hash (statusPayload target)) digest reason replay banDelay facts.now
            facts.freshId] }
  | confirmed (facts : StatusFacts) (digest : String) (role : AdminRole) (p : MoneyProposal)
      (target : UserStatus) (confirms : Confirms db facts digest p target) :
      StatusHandled db (.confirm facts (.admin digest role) p.id)
        ((db.withConfirmer p.id digest).setUserStatus ⟨p.subjectId⟩ target)
  | shadowed (actor : AdminContext) (user : UserId) (shadow : Bool) (reason : String) :
      StatusHandled db (.setShadow actor user shadow reason)
        (db.setUserStatus user (if shadow then .shadowLimited else .active))

variable {actor : AdminContext}

theorem requireAdmin_spec {digest : String} {role : AdminRole}
    (h : requireAdmin actor = .ok (digest, role)) : actor = .admin digest role := by
  cases actor with
  | machine => cases h
  | admin =>
    cases h
    rfl

variable {user : UserId} {target : UserStatus} {p : MoneyProposal} {db db' : ComplianceDb}
  {facts : StatusFacts} {kind reason : String} {status : UserStatus} {cmd : StatusCommand}

theorem proposeStatus_handled {epoch : Int}
    (h : proposeStatus facts actor user target reason epoch db = .ok (p, db')) :
    StatusHandled db (.propose facts actor user target reason epoch) db' := by
  simp only [proposeStatus, ok_iff] at h
  obtain ⟨⟨digest, role⟩, hadmin, _, -, _, -, kind, hkind, _, -, h⟩ := h
  obtain rfl := requireAdmin_spec hadmin
  split at h
  · simp only [ok_iff] at h
    obtain ⟨_, -, -, rfl⟩ := h
    exact .replayed _
  · simp only [ok_iff] at h
    obtain ⟨_, hinsert, -, rfl⟩ := h
    rw [ComplianceDb.insertProposal_spec hinsert]
    exact .proposed facts digest role user target reason _ kind epoch hkind

theorem confirmStatus_handled {proposal : Uuid}
    (h : confirmStatus facts actor proposal db = .ok (status, db')) :
    StatusHandled db (.confirm facts actor proposal) db' := by
  simp only [confirmStatus, requireDistinctTokens, ComplianceDb.proposalById, ok_iff] at h
  obtain ⟨⟨digest, role⟩, hadmin, _, -, p, hfound, _, hdistinct, _, hpending, _, hopened, _,
    hunexpired, target, hkind, _, -, ⟨_, _⟩, hconfirm, -, rfl⟩ := h
  obtain rfl := requireAdmin_spec hadmin
  obtain rfl : p.id = proposal := key_of_find hfound
  rw [ComplianceDb.confirmProposal_spec hconfirm]
  exact .confirmed facts digest role p target ⟨hfound, hkind, not_not.1 hpending, hdistinct,
    not_lt.1 hopened, not_lt.1 hunexpired⟩

theorem setShadow_handled {shadow : Bool}
    (h : setShadow actor user shadow reason db = .ok (status, db')) :
    StatusHandled db (.setShadow actor user shadow reason) db' := by
  simp only [setShadow, ok_iff] at h
  obtain ⟨_, -, _, -, _, -, _, -, -, rfl⟩ := h
  exact .shadowed actor user shadow reason

theorem statusStep_handled (h : statusStep db cmd = .ok db') : StatusHandled db cmd db' := by
  cases cmd with
  | propose =>
    obtain ⟨p, hp⟩ := map_snd_eq_ok.1 h
    exact proposeStatus_handled hp
  | confirm =>
    obtain ⟨status, hs⟩ := map_snd_eq_ok.1 h
    exact confirmStatus_handled hs
  | setShadow =>
    obtain ⟨status, hs⟩ := map_snd_eq_ok.1 h
    exact setShadow_handled hs

theorem statusTarget_active (h : statusTarget kind = .ok .active) : kind = "unban_user" := by
  unfold statusTarget at h
  split_ifs at h with hban hunban
  · cases h
  · exact hunban

theorem statusKind_target (h : statusKind target = .ok kind) : statusTarget kind = .ok target := by
  cases target with
  | active | banned => cases h; decide
  | shadowLimited => cases h

/-- The proposal stood in the table at the start, or one administrator made it in the
history `cmds` with an accepted proposal. -/
def ProposedIn (start : ComplianceDb) (cmds : List StatusCommand) (p : MoneyProposal) : Prop :=
  p.id ∈ start.proposals.map MoneyProposal.id ∨
    ∃ before facts role target reason epoch,
      AcceptedAfter statusStep start cmds before (.propose facts (.admin p.proposerTokenId role)
        ⟨p.subjectId⟩ target reason epoch) ∧ statusTarget p.kind = .ok target

variable {start : ComplianceDb} {cmds : List StatusCommand}

theorem ProposedIn.append (h : ProposedIn start cmds p) (more : List StatusCommand) :
    ProposedIn start (cmds ++ more) p := by
  rcases h with h | ⟨before, facts, role, target, reason, epoch, hacc, hkind⟩
  · exact .inl h
  · exact .inr ⟨before, facts, role, target, reason, epoch, hacc.append more, hkind⟩

/-- Confirming a proposal leaves who made it, and what it is about. -/
theorem ProposedIn.confirmed (h : ProposedIn start cmds p) (confirmer : String) :
    ProposedIn start cmds (DepositDb.confirmed confirmer p) := by
  unfold DepositDb.confirmed
  split_ifs
  · exact h
  · exact h

theorem proposedIn_step (h : ∀ p ∈ (run statusStep start cmds).proposals, ProposedIn start cmds p)
    (hstep : statusStep (run statusStep start cmds) cmd = .ok db') :
    ∀ p ∈ db'.proposals, ProposedIn start (cmds ++ [cmd]) p := by
  have haccepted := acceptedAfter_last hstep
  intro p hp
  cases statusStep_handled hstep with
  | replayed => exact (h p hp).append [cmd]
  | proposed facts digest role user target reason replay kind epoch ofTarget =>
    rcases mem_concat.1 hp with hp | rfl
    · exact (h p hp).append _
    · exact .inr ⟨cmds, facts, role, target, reason, epoch, haccepted,
        statusKind_target ofTarget⟩
  | confirmed facts digest =>
    obtain ⟨r, hr, rfl⟩ := mem_update.1 hp
    split_ifs
    · exact ((h r hr).append _).confirmed digest
    · exact (h r hr).append _
  | shadowed => exact (h p hp).append _

theorem proposedIn_run (start : ComplianceDb) (cmds : List StatusCommand) :
    ∀ p ∈ (run statusStep start cmds).proposals, ProposedIn start cmds p := by
  refine run_remembers (P := fun cmds (db : ComplianceDb) =>
    ∀ p ∈ db.proposals, ProposedIn start cmds p) ?_ ?_ ?_ cmds
  · exact fun p hp => .inl (List.mem_map_of_mem hp)
  · exact fun cmds cmd db' h hstep => proposedIn_step h hstep
  · exact fun cmds cmd h p hp => (h p hp).append [cmd]

/-- The command confirms an unban of the user: one principal proposed it, another confirms
it, after the delay and before the expiry. -/
def LiftedByTwo (start : ComplianceDb) (before : List StatusCommand) (cmd : StatusCommand)
    (user : UserId) : Prop :=
  ∃ facts digest role p, cmd = .confirm facts (.admin digest role) p.id ∧
    Confirms (run statusStep start before) facts digest p .active ∧ p.kind = "unban_user" ∧
    p.subjectId = user.uuid ∧ ProposedIn start before p

/-- No shadow command meets a banned user. -/
def sparesBanned (db : ComplianceDb) : StatusCommand → Bool
  | .setShadow _ user _ _ => db.statusOf user ≠ some .banned
  | _ => true

theorem statusOf_after {other : UserId} (hbanned : db.statusOf user = some .banned)
    (hfreed : (db.setUserStatus other target).statusOf user ≠ some .banned) :
    user = other ∧ target ≠ .banned := by
  by_cases h : user = other
  · subst h
    rw [ComplianceDb.statusOf_setUserStatus_self, hbanned] at hfreed
    exact ⟨rfl, fun htarget => hfreed (htarget ▸ rfl)⟩
  · rw [ComplianceDb.statusOf_setUserStatus_of_ne h] at hfreed
    exact absurd hbanned hfreed

theorem ban_lifted_by_two (start : ComplianceDb) (cmds : List StatusCommand)
    (hspared : Along statusStep (fun db cmd => sparesBanned db cmd = true) start cmds)
    (before later : List StatusCommand) (cmd : StatusCommand)
    (hcmds : cmds = before ++ cmd :: later)
    (db' : ComplianceDb) (hstep : statusStep (run statusStep start before) cmd = .ok db')
    (user : UserId) (hbanned : (run statusStep start before).statusOf user = some .banned)
    (hfreed : db'.statusOf user ≠ some .banned) : LiftedByTwo start before cmd user := by
  subst hcmds
  have hspares := hspared.here
  cases statusStep_handled hstep with
  | replayed | proposed => exact absurd hbanned hfreed
  | confirmed facts digest role p target confirms =>
    obtain ⟨rfl, hne⟩ := statusOf_after hbanned hfreed
    obtain rfl : target = .active := by
      have hkind := confirms.kind
      unfold statusTarget at hkind
      split_ifs at hkind
      · exact absurd (Except.ok.inj hkind).symm hne
      · exact (Except.ok.inj hkind).symm
    exact ⟨facts, digest, role, p, rfl, confirms, statusTarget_active confirms.kind, rfl,
      proposedIn_run start before p (mem_of_find confirms.found)⟩
  | shadowed =>
    obtain ⟨rfl, -⟩ := statusOf_after hbanned hfreed
    simp [sparesBanned, hbanned] at hspares

def sampleUser : UserId := ⟨7⟩

def sampleStart : ComplianceDb :=
  { users := [⟨sampleUser, 1, .active⟩], exclusions := [], proposals := [] }

def statusFactsAt (now : Instant) (freshId : Uuid) : StatusFacts := ⟨id, now, freshId⟩

/-- One operator proposes, a superadmin confirms a quarter of an hour later. -/
def sampleBan : List StatusCommand :=
  [.propose (statusFactsAt 0 1) (.admin "ops" .ops) sampleUser .banned "fraud" 1,
   .confirm (statusFactsAt (minutes 15) 0) (.admin "super" .superadmin) 1]

def sampleUnban : List StatusCommand :=
  [.propose (statusFactsAt (minutes 60) 2) (.admin "ops" .ops) sampleUser .active "appeal" 2]

def sampleRelease : StatusCommand :=
  .confirm (statusFactsAt (minutes 80) 0) (.admin "super" .superadmin) 2

/-- The operator who proposed the ban takes back a shadow limit that was never set. -/
def sampleUnshadow : StatusCommand := .setShadow (.admin "ops" .ops) sampleUser false "appeal"

theorem ban_lifted_by_one :
    (run statusStep sampleStart sampleBan).statusOf sampleUser = some .banned ∧
      (∃ db', statusStep (run statusStep sampleStart sampleBan) sampleUnshadow = .ok db' ∧
        db'.statusOf sampleUser = some .active) ∧
      ¬LiftedByTwo sampleStart sampleBan sampleUnshadow sampleUser := by
  refine ⟨by decide +kernel, ⟨_, rfl, by decide +kernel⟩, ?_⟩
  rintro ⟨facts, digest, role, p, hcmd, -⟩
  cases hcmd

theorem ban_lifted_by_ops_and_superadmin :
    LiftedByTwo sampleStart (sampleBan ++ sampleUnban) sampleRelease sampleUser :=
  ban_lifted_by_two sampleStart (sampleBan ++ sampleUnban ++ [sampleRelease])
    (by decide +kernel) (sampleBan ++ sampleUnban) [] sampleRelease rfl _ rfl sampleUser
    (by decide +kernel) (by decide +kernel)

end Opinions.Compliance
