import Opinions.Credit.Lots
import Opinions.Money.Decide

/-! The tables behind receivables, write-offs and remedial credits
(`application/src/ops`, `adapters/src/pg/unwind_tx.rs`). What is outstanding on a
receivable is never stored: every reader derives it from the movements. -/

namespace Opinions.Ops

open Lib.Result Lib.Rows Model Store Trade Money

/-- Rejections of the manual operations. -/
inductive OpsError
  | overCap (capMicro : Int)
  | invalidAmount
  | app (e : AppError)
  deriving DecidableEq

structure OpsPolicy where
  remedialMarketCapMicro : Int
  remedialDailyCapMicro : Int
  writeoffPerItemCapMicro : Int
  writeoffDailyCapMicro : Int
  proposalTtlSecs : Nat
  dualControlDelaySecs : Nat

namespace OpsPolicy

def default : OpsPolicy :=
  { remedialMarketCapMicro := 500000000, remedialDailyCapMicro := 2000000000
    writeoffPerItemCapMicro := 500000000, writeoffDailyCapMicro := 2000000000
    proposalTtlSecs := 900, dualControlDelaySecs := 60 }

/-- Seconds as a duration, cut to the signed range. -/
def seconds (n : Nat) : Int := (min n 9223372036854775807 : Nat) * 1000000000

/-- The earliest instant a dual-control proposal may confirm. -/
def confirmNotBefore (policy : OpsPolicy) (now : Instant) : Instant :=
  now + seconds policy.dualControlDelaySecs

def expiresAt (policy : OpsPolicy) (notBefore : Instant) : Instant :=
  notBefore + seconds policy.proposalTtlSecs

end OpsPolicy

/-- UTC midnight for the daily-cap window. -/
def dayStart (now : Instant) : Instant := now - now % 86400000000000

/-- What a confirmation does with the proposal it found. -/
inductive Verdict
  | replay
  | expire
  | due

/-- The dual-control checks a confirmation makes, for a proposal called `what`. -/
def screen (policy : OpsPolicy) (what : String) (status : ProposalStatus)
    (proposer confirmer : String) (notBefore now : Instant) : Except OpsError Verdict :=
  let conflict (why : String) : OpsError := .app (.proposalConflict why)
  if status = .confirmed then .ok .replay
  else do
    refuse (status ≠ .pending) (conflict (what ++ " is not pending"))
    refuse (proposer = confirmer) (conflict "confirm requires a distinct principal")
    refuse (now < notBefore) (conflict "dual-control delay has not elapsed")
    pure (if policy.expiresAt notBefore < now then .expire else .due)

structure Receivable where
  id : Uuid
  market : MarketId
  user : UserId
  originReversalTxn : String
  openedMicro : Int
  createdAt : Instant
  positive : 0 < openedMicro
  deriving DecidableEq

inductive ReceivableMovementKind
  | opened
  | collected
  | writtenOff
  deriving DecidableEq

structure ReceivableMovement where
  receivable : Uuid
  kind : ReceivableMovementKind
  amountMicro : Int
  actor : String
  cashTxn : Option String
  idempotencyKey : String
  createdAt : Instant
  positive : 0 < amountMicro

structure ReceivableOutstanding where
  receivable : Receivable
  outstandingMicro : Int

structure WriteOffProposal where
  id : Uuid
  receivable : Uuid
  idempotencyKey : String
  amountMicro : Int
  proposerTokenId : String
  confirmerTokenId : Option String
  reason : String
  status : ProposalStatus
  confirmNotBefore : Instant
  positive : 0 < amountMicro

structure RemedialCreditProposal where
  id : Uuid
  market : MarketId
  user : UserId
  idempotencyKey : String
  amountMicro : Int
  proposerTokenId : String
  confirmerTokenId : Option String
  reason : String
  status : ProposalStatus
  confirmNotBefore : Instant
  settledAt : Option Instant
  positive : 0 < amountMicro

/-- The committed rows. Receivables and remedial proposals have their id as primary key; a
movement is of a receivable there is. -/
structure OpsDb where
  ledger : Ledger
  markets : List MarketId
  handles : List (UserId × String)
  receivables : List Receivable
  movements : List ReceivableMovement
  writeOffs : List WriteOffProposal
  remedials : List RemedialCreditProposal
  realizations : List RealizationFact
  receivableIds : (receivables.map Receivable.id).Nodup
  remedialIds : (remedials.map RemedialCreditProposal.id).Nodup
  movementsOf : ∀ m ∈ movements, m.receivable ∈ receivables.map Receivable.id

def settledBy (movements : List ReceivableMovement) (id : Uuid) : Int :=
  ((movements.filter fun m => m.receivable = id ∧ (m.kind = .collected ∨ m.kind = .writtenOff)).map
    ReceivableMovement.amountMicro).sum

def outstanding (movements : List ReceivableMovement) (r : Receivable) : ReceivableOutstanding :=
  { receivable := r, outstandingMicro := r.openedMicro - settledBy movements r.id }

/-- The order of collection: by creation, then by id. -/
def older (a b : Receivable) : Prop :=
  a.createdAt < b.createdAt ∨ a.createdAt = b.createdAt ∧ a.id.toNat ≤ b.id.toNat

instance (a b : Receivable) : Decidable (older a b) :=
  inferInstanceAs (Decidable (_ ∨ _))

/-- The user's receivables with something left on them, oldest first. -/
def openReceivablesForUser (receivables : List Receivable) (movements : List ReceivableMovement)
    (user : UserId) : List ReceivableOutstanding :=
  (((receivables.filter fun r => r.user = user).insertionSort older).map
    (outstanding movements)).filter fun row => 0 < row.outstandingMicro

namespace OpsDb

def receivableById (db : OpsDb) (id : Uuid) : Option ReceivableOutstanding :=
  (find Receivable.id id db.receivables).map (outstanding db.movements)

def writeOffByKey (db : OpsDb) (key : String) : Option WriteOffProposal :=
  find WriteOffProposal.idempotencyKey key db.writeOffs

def remedialByKey (db : OpsDb) (key : String) : Option RemedialCreditProposal :=
  find RemedialCreditProposal.idempotencyKey key db.remedials

def writtenOffSince (db : OpsDb) (since : Instant) : Except StoreError Int :=
  MoneyDb.bigint ((db.movements.filter fun m => m.kind = .writtenOff ∧ since ≤ m.createdAt).map
    ReceivableMovement.amountMicro).sum

def remedialCreditedForMarket (db : OpsDb) (m : MarketId) : Except StoreError Int :=
  MoneyDb.bigint ((db.remedials.filter fun p => p.market = m ∧ p.status = .confirmed).map
    RemedialCreditProposal.amountMicro).sum

def remedialCreditedSince (db : OpsDb) (since : Instant) : Except StoreError Int :=
  MoneyDb.bigint ((db.remedials.filter fun p =>
    p.status = .confirmed ∧ p.settledAt.any fun at_ => since ≤ at_).map
    RemedialCreditProposal.amountMicro).sum

/-- The only link between a user and a principal that the store can express. -/
def linkedToPrincipal (db : OpsDb) (user : UserId) (digest : String) : Except AppError Bool := do
  let (_, handle) ← okOr (find Prod.fst user db.handles) (.store (.notFound "user"))
  pure (handle = digest)

def insertReceivable (db : OpsDb) (r : Receivable) : Except StoreError OpsDb :=
  if h : r.id ∉ db.receivables.map Receivable.id ∧
      (r.user, r.market) ∉ db.receivables.map fun x => (x.user, x.market) then
    .ok { db with
      receivables := db.receivables ++ [r]
      receivableIds := by simpa using db.receivableIds.concat h.1
      movementsOf := fun m hm => by
        rw [List.map_append]
        exact List.mem_append_left _ (db.movementsOf m hm) }
  else .error (.conflict "receivable")

def insertReceivableMovement (db : OpsDb) (m : ReceivableMovement) : Except StoreError OpsDb :=
  if m.idempotencyKey ∈ db.movements.map ReceivableMovement.idempotencyKey then
    .error (.conflict "receivable movement key")
  else if h : m.receivable ∈ db.receivables.map Receivable.id then
    .ok { db with
      movements := db.movements ++ [m]
      movementsOf := fun x hx => by
        rcases mem_concat.1 hx with hx | rfl
        · exact db.movementsOf x hx
        · exact h }
  else .error (.backend "receivable_movements_receivable_id_fkey")

def insertWriteOff (db : OpsDb) (p : WriteOffProposal) : Except StoreError OpsDb := do
  refuse (p.idempotencyKey ∈ db.writeOffs.map WriteOffProposal.idempotencyKey ∨
    p.id ∈ db.writeOffs.map WriteOffProposal.id) (.conflict "write-off proposal")
  pure { db with writeOffs := db.writeOffs ++ [p] }

/-- The columns a save of a write-off writes. -/
def savedWriteOff (p row : WriteOffProposal) : WriteOffProposal :=
  { row with status := p.status, confirmerTokenId := p.confirmerTokenId }

def saveWriteOff (db : OpsDb) (p : WriteOffProposal) : Except StoreError OpsDb := do
  refuse (p.id ∉ db.writeOffs.map WriteOffProposal.id) (.invariant "save for unknown write-off")
  pure { db with
    writeOffs := update WriteOffProposal.id p.id (savedWriteOff p) db.writeOffs }

def insertRemedial (db : OpsDb) (p : RemedialCreditProposal) : Except StoreError OpsDb :=
  if h : p.id ∉ db.remedials.map RemedialCreditProposal.id ∧
      p.idempotencyKey ∉ db.remedials.map RemedialCreditProposal.idempotencyKey then
    .ok { db with
      remedials := db.remedials ++ [p]
      remedialIds := by simpa using db.remedialIds.concat h.1 }
  else .error (.conflict "remedial proposal")

/-- The columns a save of a remedial proposal writes; `now` is the start of the saving
transaction. -/
def savedRemedial (now : Instant) (p row : RemedialCreditProposal) : RemedialCreditProposal :=
  { row with
    status := p.status
    confirmerTokenId := p.confirmerTokenId
    settledAt := if p.status = .pending then row.settledAt else some now }

def saveRemedial (db : OpsDb) (now : Instant) (p : RemedialCreditProposal) :
    Except StoreError OpsDb := do
  refuse (p.id ∉ db.remedials.map RemedialCreditProposal.id)
    (.invariant "save for unknown remedial")
  pure { db with
    remedials := update RemedialCreditProposal.id p.id (savedRemedial now p) db.remedials
    remedialIds := by
      have hids : (update RemedialCreditProposal.id p.id (savedRemedial now p) db.remedials).map
          RemedialCreditProposal.id = db.remedials.map RemedialCreditProposal.id :=
        map_key_update fun _ => rfl
      rw [hids]
      exact db.remedialIds }

/-- Once per transaction, user and outcome. -/
def insertRealization (db : OpsDb) (fact : RealizationFact) : OpsDb :=
  if db.realizations.any fun x => x.ledgerKey = fact.ledgerKey ∧ x.user = fact.user ∧
      x.outcome = fact.outcome then db
  else { db with realizations := db.realizations ++ [fact] }

variable {db db' : OpsDb}

theorem insertReceivable_spec {r : Receivable} (h : db.insertReceivable r = .ok db') :
    r.id ∉ db.receivables.map Receivable.id ∧ db'.receivables = db.receivables ++ [r] ∧
      db'.movements = db.movements ∧ db'.remedials = db.remedials := by
  unfold insertReceivable at h
  split_ifs at h with hnew
  cases h
  exact ⟨hnew.1, rfl, rfl, rfl⟩

theorem insertReceivableMovement_spec {m : ReceivableMovement}
    (h : db.insertReceivableMovement m = .ok db') :
    db'.movements = db.movements ++ [m] ∧ db'.receivables = db.receivables ∧
      db'.remedials = db.remedials := by
  unfold insertReceivableMovement at h
  split_ifs at h
  cases h
  exact ⟨rfl, rfl, rfl⟩

theorem insertMovements_spec {ms : List ReceivableMovement}
    (h : ms.foldlM insertReceivableMovement db = .ok db') :
    db'.movements = db.movements ++ ms ∧ db'.receivables = db.receivables ∧
      db'.remedials = db.remedials := by
  induction ms generalizing db with
  | nil =>
    cases h
    exact ⟨(List.append_nil _).symm, rfl, rfl⟩
  | cons m ms ih =>
    rw [List.foldlM_cons, bind_eq_ok] at h
    obtain ⟨mid, hm, hms⟩ := h
    obtain ⟨hmoves, hrows, hcredits⟩ := insertReceivableMovement_spec hm
    obtain ⟨hmoves', hrows', hcredits'⟩ := ih hms
    refine ⟨?_, hrows'.trans hrows, hcredits'.trans hcredits⟩
    rw [hmoves', hmoves, List.append_assoc]
    rfl

theorem insertWriteOff_spec {p : WriteOffProposal} (h : db.insertWriteOff p = .ok db') :
    db'.movements = db.movements ∧ db'.receivables = db.receivables ∧
      db'.remedials = db.remedials := by
  simp only [insertWriteOff, ok_iff] at h
  obtain ⟨_, -, rfl⟩ := h
  exact ⟨rfl, rfl, rfl⟩

theorem saveWriteOff_spec {p : WriteOffProposal} (h : db.saveWriteOff p = .ok db') :
    db'.movements = db.movements ∧ db'.receivables = db.receivables ∧
      db'.remedials = db.remedials := by
  simp only [saveWriteOff, ok_iff] at h
  obtain ⟨_, -, rfl⟩ := h
  exact ⟨rfl, rfl, rfl⟩

theorem insertRealization_spec (db : OpsDb) (fact : RealizationFact) :
    (db.insertRealization fact).movements = db.movements ∧
      (db.insertRealization fact).receivables = db.receivables ∧
      (db.insertRealization fact).remedials = db.remedials := by
  unfold insertRealization
  split_ifs <;> exact ⟨rfl, rfl, rfl⟩

theorem insertRemedial_spec {p : RemedialCreditProposal} (h : db.insertRemedial p = .ok db') :
    db'.movements = db.movements ∧ db'.receivables = db.receivables ∧
      db'.remedials = db.remedials ++ [p] := by
  unfold insertRemedial at h
  split_ifs at h
  cases h
  exact ⟨rfl, rfl, rfl⟩

theorem saveRemedial_spec {now : Instant} {p : RemedialCreditProposal}
    (h : db.saveRemedial now p = .ok db') :
    db'.movements = db.movements ∧ db'.receivables = db.receivables ∧
      db'.remedials =
        update RemedialCreditProposal.id p.id (savedRemedial now p) db.remedials := by
  simp only [saveRemedial, ok_iff] at h
  obtain ⟨_, -, rfl⟩ := h
  exact ⟨rfl, rfl, rfl⟩

end OpsDb

end Opinions.Ops
