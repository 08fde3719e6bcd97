import Opinions.Credit.Lots
import Opinions.Deposit.Admit

/-! The tables of a compliance transaction (`adapters/src/pg/compliance_tx.rs`): the
users with their tier and status, the self-exclusions and the proposals about both.
The proposals of other commands stand in the same table under other replay keys and
are not kept here. -/

namespace Opinions.Compliance

open Lib.Result Lib.Rows Model Store Trade Money

structure UserComplianceRow where
  user : UserId
  kycTier : Int
  status : UserStatus

def UserComplianceRow.withStatus (status : UserStatus) (r : UserComplianceRow) :
    UserComplianceRow :=
  { r with status := status }

structure SelfExclusion where
  id : Uuid
  user : UserId
  startsAt : Instant
  coolingOffUntil : Instant
  liftedAt : Option Instant
  deriving DecidableEq

def SelfExclusion.coolingOffElapsed (e : SelfExclusion) (now : Instant) : Prop :=
  e.coolingOffUntil ≤ now

def SelfExclusion.lifted (now : Instant) (e : SelfExclusion) : SelfExclusion :=
  { e with liftedAt := some now }

instance (e : SelfExclusion) (now : Instant) : Decidable (e.coolingOffElapsed now) :=
  inferInstanceAs (Decidable (e.coolingOffUntil ≤ now))

structure ComplianceDb where
  users : List UserComplianceRow
  exclusions : List SelfExclusion
  proposals : List MoneyProposal

namespace ComplianceDb

/-- The row a compliance transaction locks, as it reads it. -/
def lockUser (db : ComplianceDb) (user : UserId) : Except StoreError UserComplianceRow :=
  okOr (find UserComplianceRow.user user db.users) (.notFound "user")

def setUserStatus (db : ComplianceDb) (user : UserId) (status : UserStatus) : ComplianceDb :=
  { db with users := update UserComplianceRow.user user (·.withStatus status) db.users }

def statusOf (db : ComplianceDb) (user : UserId) : Option UserStatus :=
  (find UserComplianceRow.user user db.users).map UserComplianceRow.status

def unlifted (db : ComplianceDb) (user : UserId) : List SelfExclusion :=
  db.exclusions.filter fun e => e.user = user ∧ e.liftedAt = none

/-- The exclusion of the user that is not lifted and started last. -/
def activeSelfExclusion (db : ComplianceDb) (user : UserId) : Option SelfExclusion :=
  (db.unlifted user).foldl (List.argAux fun e best => best.startsAt < e.startsAt) none

def getSelfExclusion (db : ComplianceDb) (id : Uuid) : Except StoreError SelfExclusion :=
  okOr (find SelfExclusion.id id db.exclusions) (.notFound "self exclusion")

def insertSelfExclusion (db : ComplianceDb) (e : SelfExclusion) : Except StoreError ComplianceDb :=
  do
  refuse (e.id ∈ db.exclusions.map SelfExclusion.id) (.integrity "self_exclusions_pkey")
  pure { db with exclusions := db.exclusions ++ [e] }

def liftSelfExclusion (db : ComplianceDb) (id : Uuid) (now : Instant) : ComplianceDb :=
  { db with exclusions := update SelfExclusion.id id (·.lifted now) db.exclusions }

def proposalByReplay (db : ComplianceDb) (replayKey : String) : Option MoneyProposal :=
  find MoneyProposal.replayKey replayKey db.proposals

def proposalById (db : ComplianceDb) (id : Uuid) : Except StoreError MoneyProposal :=
  okOr (find MoneyProposal.id id db.proposals) (.notFound "proposal")

def insertProposal (db : ComplianceDb) (p : MoneyProposal) : Except StoreError ComplianceDb := do
  refuse (p.id ∈ db.proposals.map MoneyProposal.id ∨
    p.replayKey ∈ db.proposals.map MoneyProposal.replayKey ∨
    db.proposals.any fun q => q.kind = p.kind ∧ q.subjectId = p.subjectId ∧ q.status = .pending)
    (.conflict "proposal replay")
  refuse (p.expiresAt ≤ p.confirmNotBefore) (.integrity "money_command_proposals_check")
  pure { db with proposals := db.proposals ++ [p] }

/-- The proposal of the id, when pending, with its confirmer. -/
def withConfirmer (db : ComplianceDb) (id : Uuid) (confirmer : String) : ComplianceDb :=
  { db with
    proposals := update MoneyProposal.id id (Deposit.DepositDb.confirmed confirmer) db.proposals }

/-- A compare-and-swap on `pending`; what is stored afterwards is read back. -/
def confirmProposal (db : ComplianceDb) (id : Uuid) (confirmer : String) :
    Except StoreError (MoneyProposal × ComplianceDb) := do
  let p ← (db.withConfirmer id confirmer).proposalById id
  pure (p, db.withConfirmer id confirmer)

theorem statusOf_setUserStatus_self (db : ComplianceDb) (user : UserId) (status : UserStatus) :
    (db.setUserStatus user status).statusOf user = (db.statusOf user).map fun _ => status := by
  have h : find UserComplianceRow.user user (db.setUserStatus user status).users =
      (find UserComplianceRow.user user db.users).map (·.withStatus status) :=
    find_update_self fun _ => rfl
  rw [statusOf, statusOf, h, Option.map_map, Option.map_map]
  rfl

theorem statusOf_setUserStatus_of_ne {user other : UserId} (h : other ≠ user) (db : ComplianceDb)
    (status : UserStatus) : (db.setUserStatus user status).statusOf other = db.statusOf other := by
  have hfind : find UserComplianceRow.user other (db.setUserStatus user status).users =
      find UserComplianceRow.user other db.users := find_update_of_ne (fun _ => rfl) h
  rw [statusOf, statusOf, hfind]

variable {db db' : ComplianceDb}

theorem insertProposal_spec {p : MoneyProposal} (h : db.insertProposal p = .ok db') :
    db' = { db with proposals := db.proposals ++ [p] } := by
  simp only [insertProposal, ok_iff] at h
  obtain ⟨_, -, _, -, rfl⟩ := h
  rfl

theorem confirmProposal_spec {id : Uuid} {confirmer : String} {p : MoneyProposal}
    (h : db.confirmProposal id confirmer = .ok (p, db')) :
    db' = db.withConfirmer id confirmer := by
  simp only [confirmProposal, ok_iff] at h
  obtain ⟨_, -, -, rfl⟩ := h
  rfl

theorem insertSelfExclusion_spec {e : SelfExclusion} (h : db.insertSelfExclusion e = .ok db') :
    e.id ∉ db.exclusions.map SelfExclusion.id ∧
      db' = { db with exclusions := db.exclusions ++ [e] } := by
  simp only [insertSelfExclusion, ok_iff] at h
  obtain ⟨_, hid, rfl⟩ := h
  exact ⟨hid, rfl⟩

theorem activeSelfExclusion_eq_none {user : UserId} :
    db.activeSelfExclusion user = none ↔ db.unlifted user = [] := by
  simp [activeSelfExclusion]

end ComplianceDb

end Opinions.Compliance
