import Opinions.Compliance.Gate
import Opinions.Compliance.SelfExclusion
import Opinions.Lib.Flight
import Opinions.Money.Request

/-! When a ban or a self-exclusion takes effect. A money operation takes the advisory lock
of its users and then reads their rows and exclusions; a ban confirmation and the start of
an exclusion lock the user's row instead, so neither waits for the other. The foreign-key
share locks of the operation's inserts are left out: they come after the gate. -/

namespace Opinions.Compliance.Commit

open Lib Lib.Result Lib.Rows Lib.Run Lib.Locks Model Store Trade Money Deposit

/-- The advisory lock of a user's money, and the lock of the user's row. -/
inductive Lock
  | user (user : UserId)
  | row (user : UserId)
  deriving DecidableEq

inductive OperationKind
  | mutation (kind : MoneyMutation) (amountMicro : Int)
  | withdraw (cmd : RequestWithdrawCmd) (limits : WithdrawLimits)

/-- A trade, a vote, a grant or a withdrawal request: whom it locks and checks, and what
the check reads outside the compliance tables. -/
structure Operation where
  users : List UserId
  kind : OperationKind
  reads : UserId → GateReads
  now : Instant

/-- The policy on a user's row and exclusion. A withdrawal request of an excluded user is
only marked for review. -/
def Operation.policy (op : Operation) (user : UserId) (row : UserComplianceRow)
    (selfExcluded : Bool) : Except AppError Unit :=
  match op.kind with
  | .mutation kind amountMicro => do
    let snap ← (snapshotOf (op.reads user) row selfExcluded op.now).mapError .store
    decideMoneyMutation snap kind amountMicro
  | .withdraw cmd limits =>
    match admissionRefusal cmd limits ⟨row.status, row.kycTier, none⟩ with
    | none => .ok ()
    | some (_, message) => .error (.moneyForbidden message)

def Operation.allowed (op : Operation) (db : ComplianceDb) (user : UserId) : Prop :=
  ∃ row, db.lockUser user = .ok row ∧
    op.policy user row (db.selfExcluded user op.now) = .ok ()

variable {db db' : ComplianceDb} {i : Nat} {u : UserId} {op : Operation} {k : Lock}

/-- For all but withdrawals, that is the gate. -/
theorem allowed_iff_enforce {kind : MoneyMutation} {amountMicro : Int}
    (h : op.kind = .mutation kind amountMicro) {user : UserId} :
    op.allowed db user ↔
      enforceMoneyMutation (op.reads user) db user kind amountMicro op.now = .ok () := by
  simp only [Operation.allowed, Operation.policy, h, enforceMoneyMutation, readGateSnapshot, ok_iff]
  constructor
  · rintro ⟨row, hrow, snap, hsnap, hdecide⟩
    exact ⟨snap, ⟨row, hrow, hsnap⟩, hdecide⟩
  · rintro ⟨snap, ⟨row, hrow, hsnap⟩, hdecide⟩
    exact ⟨row, hrow, snap, hsnap, hdecide⟩

/-! ### Confirmations in two parts -/

/-- Everything a confirmation checks before it locks the user's row. -/
def readStatusProposal (facts : StatusFacts) (actor : AdminContext) (proposal : Uuid)
    (db : ComplianceDb) : Except AppError (String × MoneyProposal × UserStatus) := do
  let (digest, role) ← requireAdmin actor
  requireRole role [.superadmin]
  let p ← (db.proposalById proposal).mapError .store
  requireDistinctTokens p.proposerTokenId digest
  refuse (p.status ≠ .pending) (.proposalConflict "proposal is not pending")
  refuse (facts.now < p.confirmNotBefore) (.proposalConflict "confirm_not_before has not elapsed")
  refuse (p.expiresAt < facts.now) (.proposalConflict "proposal expired")
  let target ← statusTarget p.kind
  pure (digest, p, target)

/-- What it writes once it has the row. -/
def writeStatus (proposal : Uuid) (digest : String) (p : MoneyProposal) (target : UserStatus)
    (db : ComplianceDb) : Except AppError ComplianceDb := do
  let (_, confirmed) ← (db.confirmProposal proposal digest).mapError .store
  pure (confirmed.setUserStatus ⟨p.subjectId⟩ target)

theorem confirmStatus_eq (facts : StatusFacts) (actor : AdminContext) (proposal : Uuid)
    (db : ComplianceDb) :
    confirmStatus facts actor proposal db = (do
      let (digest, p, target) ← readStatusProposal facts actor proposal db
      let _ ← (db.lockUser ⟨p.subjectId⟩).mapError .store
      let db' ← writeStatus proposal digest p target db
      pure (target, db')) := by
  simp only [confirmStatus, readStatusProposal, writeStatus, bind_assoc, pure_bind]

/-! ### Transactions -/

/-- A money operation in flight: the users still to be locked, those whose check passed,
those still to be checked, and the row of the first of them once it is read. -/
structure Working where
  op : Operation
  unlocked : List UserId
  passed : List UserId
  unread : List UserId
  row : Option UserComplianceRow

inductive Session
  | working (x : Working)
  | confirming (facts : StatusFacts) (actor : AdminContext) (proposal : Uuid)
  | confirmed (proposal : Uuid) (digest : String) (p : MoneyProposal) (target : UserStatus)
  | confirmLocked (proposal : Uuid) (digest : String) (p : MoneyProposal) (target : UserStatus)
  | excluding (e : SelfExclusion)
  | excludeLocked (e : SelfExclusion)
  | excludeChecked (e : SelfExclusion)

abbrev Sessions := Flight Session Lock

abbrev Halt := Blocked AppError

inductive Request
  | operation (op : Operation)
  | confirmStatus (facts : StatusFacts) (actor : AdminContext) (proposal : Uuid)
  | startSelfExclusion (user : UserId) (coolingOff : Int) (now : Instant) (freshId : Uuid)

def Request.session : Request → Except AppError Session
  | .operation op => .ok (.working ⟨op, op.users, [], op.users, none⟩)
  | .confirmStatus facts actor proposal => .ok (.confirming facts actor proposal)
  | .startSelfExclusion user coolingOff now freshId => do
    refuse (coolingOff ≤ 0) (.adminForbidden "cooling-off must be positive")
    pure (.excluding (.starting user coolingOff now freshId))

namespace Working

/-- Lock the next user, read their row, or read their exclusion and decide. -/
def advance (x : Working) (i : Nat) (db : ComplianceDb) (f : Sessions) :
    Except Halt (Sessions × Working) :=
  match x.unlocked, x.unread, x.row with
  | u :: us, _, _ => do
    let f ← f.hold i (.user u)
    pure (f, { x with unlocked := us })
  | [], u :: _, none => do
    let row ← ((db.lockUser u).mapError .store).mapError .refused
    pure (f, { x with row := some row })
  | [], u :: us, some row => do
    (x.op.policy u row (db.selfExcluded u x.op.now)).mapError .refused
    pure (f, { x with passed := u :: x.passed, unread := us, row := none })
  | [], [], _ => .error .notReady

end Working

namespace Session

def advance (i : Nat) (db : ComplianceDb) (f : Sessions) :
    Session → Except Halt (Sessions × Session)
  | .working x => do
    let (f, x) ← x.advance i db f
    pure (f, .working x)
  | .confirming facts actor proposal => do
    let (digest, p, target) ← (readStatusProposal facts actor proposal db).mapError .refused
    pure (f, .confirmed proposal digest p target)
  | .confirmed proposal digest p target => do
    let f ← f.hold i (.row ⟨p.subjectId⟩)
    let _ ← ((db.lockUser ⟨p.subjectId⟩).mapError .store).mapError .refused
    pure (f, .confirmLocked proposal digest p target)
  | .excluding e => do
    let f ← f.hold i (.row e.user)
    let _ ← ((db.lockUser e.user).mapError .store).mapError .refused
    pure (f, .excludeLocked e)
  | .excludeLocked e => do
    refuse ((db.activeSelfExclusion e.user).isSome = true)
      (.refused (.adminForbidden "self-exclusion is already active"))
    pure (f, .excludeChecked e)
  | .confirmLocked _ _ _ _ | .excludeChecked _ => .error .notReady

def commit (db : ComplianceDb) : Session → Except Halt ComplianceDb
  | .working x => do
    refuse (x.unlocked ≠ [] ∨ x.unread ≠ []) .notReady
    pure db
  | .confirmLocked proposal digest p target =>
    (writeStatus proposal digest p target db).mapError .refused
  | .excludeChecked e =>
    ((db.insertSelfExclusion e).mapError .store).mapError .refused
  | _ => .error .notReady

end Session

inductive Action
  | start (i : Nat) (request : Request)
  | advance (i : Nat)
  | commit (i : Nat)
  | abort (i : Nat)

structure World where
  db : ComplianceDb
  flight : Sessions

namespace World

def quiet (db : ComplianceDb) : World := { db := db, flight := .empty }

def step (w : World) : Action → Except Halt World
  | .start i request => do
    refuse ((w.flight.session i).isSome = true) .sessionExists
    let s ← request.session.mapError .refused
    pure { w with flight := w.flight.put i s }
  | .advance i => do
    let s ← okOr (w.flight.session i) .noSession
    let (f, s) ← s.advance i w.db w.flight
    pure { w with flight := f.put i s }
  | .commit i => do
    let s ← okOr (w.flight.session i) .noSession
    let db ← s.commit w.db
    pure { db := db, flight := w.flight.finish i }
  | .abort i => .ok { w with flight := w.flight.finish i }

end World

/-! ### What one statement does -/

def Session.rowUser : Session → Option UserId
  | .confirmLocked _ _ p _ => some ⟨p.subjectId⟩
  | .excludeLocked e | .excludeChecked e => some e.user
  | _ => none

def Session.wantsRow : Session → Option UserId
  | .confirmed _ _ p _ => some ⟨p.subjectId⟩
  | .excluding e => some e.user
  | _ => none

def Session.isWorking : Session → Bool
  | .working _ => true
  | _ => false

inductive Next (i : Nat) (db : ComplianceDb) (f : Sessions) :
    Sessions → Session → Session → Prop
  | locked (f' : Sessions) (x : Working) (u : UserId) (us : List UserId)
      (unlocked : x.unlocked = u :: us) (held : f.hold i (.user u) = (.ok f' : Except Halt _)) :
      Next i db f f' (.working x) (.working { x with unlocked := us })
  | read (x : Working) (u : UserId) (us : List UserId) (row : UserComplianceRow)
      (unlocked : x.unlocked = []) (unread : x.unread = u :: us)
      (found : db.lockUser u = .ok row) :
      Next i db f f (.working x) (.working { x with row := some row })
  | passed (x : Working) (u : UserId) (us : List UserId) (row : UserComplianceRow)
      (unlocked : x.unlocked = []) (unread : x.unread = u :: us) (known : x.row = some row)
      (policy : x.op.policy u row (db.selfExcluded u x.op.now) = .ok ()) :
      Next i db f f (.working x)
        (.working { x with passed := u :: x.passed, unread := us, row := none })
  | rowLocked (f' : Sessions) (s s' : Session) (u : UserId) (wanted : s.wantsRow = some u)
      (user : s'.rowUser = some u) (manual : s'.isWorking = false)
      (held : f.hold i (.row u) = (.ok f' : Except Halt _)) : Next i db f f' s s'
  | prepared (s s' : Session) (user : s'.rowUser = s.rowUser) (manual : s'.isWorking = false) :
      Next i db f f s s'

variable {f f' : Sessions} {s : Session} {w : World} {x x' : Working} {s' : Session} {a : Action}
  {w' : World}

theorem Working.advance_next (h : x.advance i db f = .ok (f', x')) :
    Next i db f f' (.working x) (.working x') := by
  unfold Working.advance at h
  split at h
  · simp only [ok_iff] at h
    obtain ⟨_, hheld, rfl, rfl⟩ := h
    exact .locked _ x _ _ ‹_› hheld
  · simp only [ok_iff] at h
    obtain ⟨row, hrow, rfl, rfl⟩ := h
    exact .read x _ _ row ‹_› ‹_› hrow
  · simp only [ok_iff] at h
    obtain ⟨_, hpolicy, rfl, rfl⟩ := h
    exact .passed x _ _ _ ‹_› ‹_› ‹_› hpolicy
  · cases h

theorem Session.advance_next (h : s.advance i db f = .ok (f', s')) : Next i db f f' s s' := by
  cases s with
  | working =>
    simp only [advance, ok_iff] at h
    obtain ⟨⟨_, _⟩, hx, rfl, rfl⟩ := h
    exact Working.advance_next hx
  | confirming facts actor proposal =>
    simp only [advance, ok_iff] at h
    obtain ⟨⟨digest, p, target⟩, -, rfl, rfl⟩ := h
    exact .prepared (.confirming facts actor proposal) (.confirmed proposal digest p target) rfl rfl
  | confirmed proposal digest p =>
    simp only [advance, ok_iff] at h
    obtain ⟨_, hheld, _, -, rfl, rfl⟩ := h
    exact .rowLocked _ _ _ ⟨p.subjectId⟩ rfl rfl rfl hheld
  | excluding e =>
    simp only [advance, ok_iff] at h
    obtain ⟨_, hheld, _, -, rfl, rfl⟩ := h
    exact .rowLocked _ _ _ e.user rfl rfl rfl hheld
  | excludeLocked e =>
    simp only [advance, ok_iff] at h
    obtain ⟨_, -, rfl, rfl⟩ := h
    exact .prepared (.excludeLocked e) (.excludeChecked e) rfl rfl
  | confirmLocked | excludeChecked => cases h

/-- Only the user's own row and exclusions may differ. -/
def OnlyFor (u : UserId) (db db' : ComplianceDb) : Prop :=
  ∀ v, v ≠ u → db'.lockUser v = db.lockUser v ∧ db'.unlifted v = db.unlifted v

theorem OnlyFor.allowed {v : UserId} (h : OnlyFor u db db') (hne : v ≠ u)
    (hallowed : op.allowed db v) : op.allowed db' v := by
  obtain ⟨hrow, hunlifted⟩ := h v hne
  have hexcluded : db'.selfExcluded v op.now = db.selfExcluded v op.now := by
    simp only [ComplianceDb.selfExcluded, ComplianceDb.activeSelfExclusion, hunlifted]
  unfold Operation.allowed
  rwa [hrow, hexcluded]

theorem onlyFor_writeStatus {proposal : Uuid} {digest : String} {p : MoneyProposal}
    {target : UserStatus} (h : writeStatus proposal digest p target db = .ok db') :
    OnlyFor ⟨p.subjectId⟩ db db' := by
  simp only [writeStatus, ok_iff] at h
  obtain ⟨⟨_, _⟩, hconfirm, rfl⟩ := h
  rw [ComplianceDb.confirmProposal_spec hconfirm]
  intro v hne
  have hfind : find UserComplianceRow.user v (update UserComplianceRow.user ⟨p.subjectId⟩
      (·.withStatus target) db.users) = find UserComplianceRow.user v db.users :=
    find_update_of_ne (fun _ => rfl) hne
  exact ⟨congrArg (okOr · _) hfind, rfl⟩

theorem onlyFor_insert {e : SelfExclusion} (h : db.insertSelfExclusion e = .ok db') :
    OnlyFor e.user db db' := by
  obtain ⟨-, rfl⟩ := ComplianceDb.insertSelfExclusion_spec h
  intro v hne
  refine ⟨rfl, ?_⟩
  simp [ComplianceDb.unlifted, hne.symm]

/-- A commit writes nothing, or only rows of the user whose row is locked. -/
theorem Session.commit_onlyFor (h : s.commit db = .ok db') :
    (∃ x, s = .working x ∧ x.unlocked = [] ∧ x.unread = [] ∧ db' = db) ∨
      ∃ u, s.rowUser = some u ∧ OnlyFor u db db' := by
  cases s with
  | working x =>
    simp only [commit, not_or, not_not, ok_iff] at h
    obtain ⟨_, ⟨hunlocked, hunread⟩, rfl⟩ := h
    exact .inl ⟨x, rfl, hunlocked, hunread, rfl⟩
  | confirmLocked =>
    exact .inr ⟨_, rfl, onlyFor_writeStatus (mapError_eq_ok.1 h)⟩
  | excludeChecked =>
    exact .inr ⟨_, rfl, onlyFor_insert (mapError_eq_ok.1 (mapError_eq_ok.1 h))⟩
  | confirming | confirmed | excluding | excludeLocked => cases h

inductive Moved (w : World) : Action → World → Prop
  | started (i : Nat) (request : Request) (s : Session) (opened : request.session = .ok s) :
      Moved w (.start i request) { w with flight := w.flight.put i s }
  | advanced (i : Nat) (s s' : Session) (f : Sessions) (found : w.flight.session i = some s)
      (next : Next i w.db w.flight f s s') :
      Moved w (.advance i) { w with flight := f.put i s' }
  | committed (i : Nat) (s : Session) (db : ComplianceDb) (found : w.flight.session i = some s)
      (left : s.commit w.db = .ok db) :
      Moved w (.commit i) { db := db, flight := w.flight.finish i }
  | aborted (i : Nat) : Moved w (.abort i) { w with flight := w.flight.finish i }

theorem World.step_moved (h : w.step a = .ok w') : Moved w a w' := by
  cases a with
  | start i request =>
    simp only [step, ok_iff] at h
    obtain ⟨_, -, s, hs, rfl⟩ := h
    exact .started i request s hs
  | advance i =>
    simp only [step, ok_iff] at h
    obtain ⟨s, hs, ⟨f, s'⟩, hnext, rfl⟩ := h
    exact .advanced i s s' f hs (Session.advance_next hnext)
  | commit i =>
    simp only [step, ok_iff] at h
    obtain ⟨s, hs, db, hdb, rfl⟩ := h
    exact .committed i s db hs hdb
  | abort i =>
    cases h
    exact .aborted i

/-! ### What holds between the checks and the commit -/

/-- An operation in flight: it holds the lock of every user it is past locking, and what it
found out about its users is still so. -/
structure Current (db : ComplianceDb) (f : Sessions) (i : Nat) (x : Working) : Prop where
  locked : ∀ u ∈ x.op.users, u ∈ x.unlocked ∨ f.Holds i (.user u)
  early : x.unlocked ≠ [] → x.passed = [] ∧ x.row = none
  passed : ∀ u ∈ x.passed, u ∈ x.op.users ∧ x.op.allowed db u
  unread : ∀ u ∈ x.unread, u ∈ x.op.users
  covered : ∀ u ∈ x.op.users, u ∈ x.passed ∨ u ∈ x.unread
  row : ∀ r, x.row = some r → ∃ u us, x.unread = u :: us ∧ db.lockUser u = .ok r

structure Sound (w : World) : Prop where
  safe : Safe w.flight.locks
  apart : ∀ u i j, w.flight.Holds i (.user u) → ¬w.flight.Holds j (.row u)
  rows : ∀ i s u, w.flight.session i = some s → s.rowUser = some u → w.flight.Holds i (.row u)
  working : ∀ i x, w.flight.session i = some (.working x) → Current w.db w.flight i x

namespace Current

theorem begun (db : ComplianceDb) (f : Sessions) (i : Nat) (op : Operation) :
    Current db f i ⟨op, op.users, [], op.users, none⟩ where
  locked := fun _ hu => .inl hu
  early := fun _ => ⟨rfl, rfl⟩
  passed := List.forall_mem_nil _
  unread := fun _ hu => hu
  covered := fun _ hu => .inr hu
  row := by rintro _ ⟨⟩

theorem mono (h : Current db f i x) (hkeeps : ∀ k, f.Holds i k → f'.Holds i k) :
    Current db f' i x :=
  { h with locked := fun u hu => (h.locked u hu).imp_right (hkeeps _) }

/-- A user the operation has looked at is one it holds the lock of. -/
theorem holds (h : Current db f i x) (hu : u ∈ x.op.users) (hlate : x.passed ≠ [] ∨ x.row ≠ none) :
    f.Holds i (.user u) := by
  have hunlocked : x.unlocked = [] := by
    by_contra hne
    obtain ⟨hpassed, hrow⟩ := h.early hne
    exact hlate.elim (fun h => h hpassed) fun h => h hrow
  have hlocked := h.locked u hu
  rw [hunlocked] at hlocked
  exact hlocked.resolve_left List.not_mem_nil

/-- A write to another user's row or exclusions changes nothing the operation found out. -/
theorem onlyFor (h : Current db f i x) (hdb : OnlyFor u db db') (hfree : ¬f.Holds i (.user u)) :
    Current db' f i x := by
  refine { h with passed := fun v hv => ?_, row := fun r hr => ?_ }
  · obtain ⟨hmem, hallowed⟩ := h.passed v hv
    have hheld := h.holds hmem (.inl (List.ne_nil_of_mem hv))
    exact ⟨hmem, hdb.allowed (fun heq => hfree (heq ▸ hheld)) hallowed⟩
  · obtain ⟨v, us, hunread, hrow⟩ := h.row r hr
    have hmem := h.unread v (hunread ▸ List.mem_cons_self)
    have hheld := h.holds hmem (.inr (hr ▸ Option.some_ne_none r))
    exact ⟨v, us, hunread, ((hdb v fun heq => hfree (heq ▸ hheld)).1).trans hrow⟩

theorem next (h : Current db f i x) (hnext : Next i db f f' (.working x) (.working x')) :
    Current db f' i x' := by
  cases hnext with
  | locked _ _ u us unlocked held =>
    have hgrown := Flight.hold_grown held
    have hearly := h.early (by simp [unlocked])
    refine { h with locked := fun v hv => ?_, early := fun _ => hearly }
    rcases h.locked v hv with hv | hv
    · rw [unlocked, List.mem_cons] at hv
      rcases hv with rfl | hv
      · exact .inr (Flight.hold_holds held)
      · exact .inl hv
    · exact .inr (hgrown.keeps _ _ hv)
  | read _ u us row unlocked unread found =>
    refine { h with early := fun hne => absurd unlocked hne, row := fun r hr => ?_ }
    cases hr
    exact ⟨u, us, unread, found⟩
  | passed _ u us row unlocked unread known policy =>
    obtain ⟨v, vs, hunread, hrow⟩ := h.row row known
    obtain ⟨rfl, rfl⟩ := List.cons.inj (unread.symm.trans hunread)
    have hmem := h.unread u (unread ▸ List.mem_cons_self)
    refine ⟨h.locked, fun hne => absurd unlocked hne, fun v hv => ?_, fun v hv => ?_,
      fun v hv => ?_, (by rintro _ ⟨⟩)⟩
    · rcases List.mem_cons.1 hv with rfl | hv
      · exact ⟨hmem, row, hrow, policy⟩
      · exact h.passed v hv
    · exact h.unread v (unread ▸ List.mem_cons_of_mem _ hv)
    · rcases h.covered v hv with hv | hv
      · exact .inl (List.mem_cons_of_mem _ hv)
      · rw [unread, List.mem_cons] at hv
        rcases hv with rfl | hv
        · exact .inl List.mem_cons_self
        · exact .inr hv
  | rowLocked _ _ _ _ _ _ manual | prepared _ _ _ manual => cases manual

end Current

/-- An operation takes a user's advisory lock only while no transaction holds the row of
that user, and a ban or an exclusion takes the row only while no operation holds the
advisory lock. -/
def keptApart (w : World) : Action → Bool
  | .advance i =>
    match w.flight.session i with
    | some (.working x) => x.unlocked.head?.all fun u => w.flight.locks.all (·.lock ≠ .row u)
    | some s => s.wantsRow.all fun u => w.flight.locks.all (·.lock ≠ .user u)
    | none => true
  | _ => true

theorem not_holds_of_all (h : f.locks.all (·.lock ≠ k)) (i : Nat) : ¬f.Holds i k := by
  intro hheld
  have hne := List.all_eq_true.1 h _ hheld
  simp at hne

/-- A new lock leaves the two kinds apart when the other kind is free. -/
theorem apart_hold (hapart : ∀ u i j, f.Holds i (.user u) → ¬f.Holds j (.row u))
    (hheld : f.hold i k = (.ok f' : Except Halt _))
    (hrow : ∀ u, k = .user u → ∀ j, ¬f.Holds j (.row u))
    (huser : ∀ u, k = .row u → ∀ j, ¬f.Holds j (.user u)) :
    ∀ u i j, f'.Holds i (.user u) → ¬f'.Holds j (.row u) := by
  intro u a b ha hb
  rcases Flight.holds_of_hold hheld ha with ha | ⟨-, ha⟩ <;>
    rcases Flight.holds_of_hold hheld hb with hb | ⟨-, hb⟩
  · exact hapart u a b ha hb
  · exact huser u hb.symm a ha
  · exact hrow u ha.symm b hb
  · cases ha.trans hb.symm

theorem Sound.put (h : Sound w) (hgrown : Flight.Grown w.flight f)
    (hapart : ∀ u i j, f.Holds i (.user u) → ¬f.Holds j (.row u))
    (hrow : ∀ u, s.rowUser = some u → f.Holds i (.row u))
    (hworking : ∀ x, s = .working x → Current w.db f i x) :
    Sound { w with flight := f.put i s } where
  safe := hgrown.safe h.safe
  apart := hapart
  rows := by
    intro j t u ht hu
    rcases hgrown.session_of_put ht with ⟨rfl, rfl⟩ | ⟨-, ht⟩
    · exact hrow u hu
    · exact hgrown.keeps _ _ (h.rows j t u ht hu)
  working := by
    intro j x hx
    rcases hgrown.session_of_put hx with ⟨rfl, hs⟩ | ⟨-, hx⟩
    · exact (hworking x hs.symm).mono fun _ => id
    · exact (h.working j x hx).mono fun k => hgrown.keeps j k

theorem Sound.finish (h : Sound w)
    (hdb : db = w.db ∨ ∃ u, w.flight.Holds i (.row u) ∧ OnlyFor u w.db db) :
    Sound { db := db, flight := w.flight.finish i } where
  safe := h.safe.release i
  apart := fun u a b ha hb => h.apart u a b (mem_release.1 ha).1 (mem_release.1 hb).1
  rows := by
    intro j t u ht hu
    obtain ⟨hj, ht⟩ := Flight.session_of_finish ht
    exact Flight.holds_finish hj (h.rows j t u ht hu)
  working := by
    intro j x hx
    obtain ⟨hj, hx⟩ := Flight.session_of_finish hx
    have hcurrent := h.working j x hx
    have hkept : Current db w.flight j x := by
      rcases hdb with rfl | ⟨u, hheld, honly⟩
      · exact hcurrent
      · exact hcurrent.onlyFor honly fun hj => h.apart u j i hj hheld
    exact hkept.mono fun k => Flight.holds_finish hj

theorem Request.session_begun {request : Request} (h : request.session = .ok s) :
    s.rowUser = none ∧
      ∀ x, s = .working x → ∃ op, x = ⟨op, Operation.users op, [], op.users, none⟩ := by
  cases request with
  | operation op =>
    cases h
    refine ⟨rfl, fun x hx => ⟨op, ?_⟩⟩
    cases hx
    rfl
  | confirmStatus =>
    cases h
    exact ⟨rfl, fun x hx => by cases hx⟩
  | startSelfExclusion =>
    simp only [Request.session, ok_iff] at h
    obtain ⟨_, -, rfl⟩ := h
    exact ⟨rfl, fun x hx => by cases hx⟩

theorem Sound.next (h : Sound w) (hfound : w.flight.session i = some s)
    (hapart : keptApart w (.advance i)) (hnext : Next i w.db w.flight f s s') :
    Sound { w with flight := f.put i s' } := by
  simp only [keptApart, hfound] at hapart
  have hworking (x' : Working) (hx' : s' = .working x') : Current w.db f i x' := by
    subst hx'
    cases s with
    | working x => exact (h.working i x hfound).next hnext
    | _ =>
      cases hnext with
      | rowLocked _ _ _ _ _ _ manual | prepared _ _ _ manual => cases manual
  cases hnext with
  | locked _ x u us unlocked held =>
    have hfree : ∀ j, ¬w.flight.Holds j (.row u) := by
      simp only [unlocked, List.head?_cons, Option.all_some] at hapart
      exact not_holds_of_all hapart
    refine h.put (Flight.hold_grown held) (apart_hold h.apart held ?_ ?_) (by rintro _ ⟨⟩) hworking
    · rintro v ⟨⟩
      exact hfree
    · rintro v ⟨⟩
  | read | passed => exact h.put (.refl _) h.apart (by rintro _ ⟨⟩) hworking
  | rowLocked _ _ _ u wanted user manual held =>
    have hfree : ∀ j, ¬w.flight.Holds j (.user u) := by
      cases s with
      | working => cases wanted
      | _ =>
        simp only [wanted, Option.all_some] at hapart
        exact not_holds_of_all hapart
    refine h.put (Flight.hold_grown held) (apart_hold h.apart held ?_ ?_) ?_ hworking
    · rintro v ⟨⟩
    · rintro v ⟨⟩
      exact hfree
    · intro v hv
      obtain rfl := Option.mem_unique user hv
      exact Flight.hold_holds held
  | prepared _ _ user =>
    exact h.put (.refl _) h.apart (fun u hu => h.rows i s u hfound (user ▸ hu)) hworking

theorem step_sound (h : Sound w) (hapart : keptApart w a) (hstep : w.step a = .ok w') :
    Sound w' := by
  cases World.step_moved hstep with
  | started i request s opened =>
    obtain ⟨hrow, hworking⟩ := Request.session_begun opened
    refine h.put (.refl _) h.apart (fun u hu => ?_) fun x hx => ?_
    · rw [hrow] at hu
      cases hu
    · obtain ⟨op, rfl⟩ := hworking x hx
      exact Current.begun w.db w.flight i op
  | advanced i s s' f found next => exact h.next found hapart next
  | committed i s db found left =>
    refine h.finish ?_
    rcases Session.commit_onlyFor left with ⟨x, -, -, -, hdb⟩ | ⟨u, hu, honly⟩
    · exact .inl hdb
    · exact .inr ⟨u, h.rows i s u found hu, honly⟩
  | aborted => exact h.finish (.inl rfl)

theorem sound_run {actions : List Action}
    (hapart : Along World.step (fun w a => keptApart w a = true) (World.quiet db) actions) :
    Sound (run World.step (World.quiet db) actions) := by
  refine run_preserves_along (fun w a w' h hC hstep => step_sound h hC hstep) ?_ hapart
  exact ⟨safe_nil, fun _ _ _ h => absurd h List.not_mem_nil, fun _ _ _ hs => (by cases hs),
    fun _ _ hx => (by cases hx)⟩

/-- The buy of one user, checked at instant 2. -/
def sampleTrade : Operation :=
  { users := [sampleUser], kind := .mutation .placeTrade 500000, now := 2
    reads := fun _ =>
      { requiredKycTier := some 1, geo := some (.clear 0 1000 "1")
        sanctions := some (.clear 0 1000 "1"), depositLimitMicro := none
        pauseDeposits := some (some false), shadowTradeCapMicro := some 25000000
        shadowDepositCapMicro := some 25000000 } }

/-- A ban of the user is proposed and can be confirmed at instant 1. -/
def sampleProposed : ComplianceDb :=
  { sampleStart with
    proposals := [newProposal "ban_user" sampleUser.uuid "" "ops" "fraud" "user_status:1" 0 1 5] }

/-- The trade locks its user and passes the gate. -/
def sampleGate (i : Nat) : List Action :=
  [.start i (.operation sampleTrade), .advance i, .advance i, .advance i]

/-- The ban is read, takes the row and commits. -/
def sampleConfirm (i : Nat) : List Action :=
  [.start i (.confirmStatus ⟨id, 1, 0⟩ (.admin "super" .superadmin) 5), .advance i, .advance i,
   .commit i]

def sampleRace : World :=
  run World.step (World.quiet sampleProposed) (sampleGate 1 ++ sampleConfirm 2)

end Opinions.Compliance.Commit
