import Opinions.Ops.Collect

/-! The dual-controlled write-off of a receivable (`WriteOffReceivable` in
`application/src/ops/receivable_collection.rs`), statement by statement. Proposing and
confirming take the advisory lock of the receivable the command names and lock the
proposal's row; reading the receivable takes no lock. -/

namespace Opinions.Ops

open Lib Lib.Result Model Store Trade Money Credit

structure WriteOffCmd where
  receivable : Uuid
  reason : String
  idempotencyKey : String

def writeOffKey (id : Uuid) : String := "write-off:" ++ uuidText id

def conflict (why : String) : Halt := refusedApp (.proposalConflict why)

/-- The clock and the new id a statement may use. -/
structure Inputs where
  now : Instant
  freshId : Uuid

inductive WriteOffDraft
  | begun
  | guarded
  | absent
  | replayed
  | prepared (p : WriteOffProposal)

structure WriteOffProposing where
  cmd : WriteOffCmd
  proposer : String
  stage : WriteOffDraft

namespace WriteOffProposing

variable {σ : Type}

def prepare (policy : OpsPolicy) (inputs : Inputs) (row : ReceivableOutstanding)
    (x : WriteOffProposing) : Except Halt WriteOffProposal :=
  if h : 0 < row.outstandingMicro then do
    refuse (policy.writeoffPerItemCapMicro < row.outstandingMicro)
      (.refused (.overCap policy.writeoffPerItemCapMicro))
    pure { id := inputs.freshId, receivable := x.cmd.receivable
           idempotencyKey := x.cmd.idempotencyKey, amountMicro := row.outstandingMicro
           proposerTokenId := x.proposer, confirmerTokenId := none, reason := x.cmd.reason
           status := .pending, confirmNotBefore := policy.confirmNotBefore inputs.now
           positive := h }
  else .error (conflict "receivable is not open")

def advance (policy : OpsPolicy) (i : Nat) (db : OpsDb) (inputs : Inputs) (x : WriteOffProposing)
    (f : Flight σ Lock) : Except Halt (Flight σ Lock × WriteOffDraft) :=
  match x.stage with
  | .begun => do
    let f ← f.hold i (.key (writeOffKey x.cmd.receivable))
    pure (f, .guarded)
  | .guarded =>
    match db.writeOffByKey x.cmd.idempotencyKey with
    | none => pure (f, .absent)
    | some _ => do
      let f ← f.hold i (.writeOff x.cmd.idempotencyKey)
      pure (f, .replayed)
  | .absent => do
    let row ← okOr (db.receivableById x.cmd.receivable) (refusedStore (.notFound "receivable"))
    let p ← x.prepare policy inputs row
    pure (f, .prepared p)
  | .replayed | .prepared _ => .error .notReady

def commit (db : OpsDb) (x : WriteOffProposing) : Except Halt OpsDb :=
  match x.stage with
  | .replayed => .ok db
  | .prepared p => (db.insertWriteOff p).mapError refusedStore
  | _ => .error .notReady

end WriteOffProposing

structure Forgiven where
  proposal : WriteOffProposal
  row : ReceivableOutstanding
  now : Instant
  amountMicro : Int
  positive : 0 < amountMicro
  ofProposal : amountMicro ≤ proposal.amountMicro
  ofDebt : amountMicro ≤ row.outstandingMicro

inductive WriteOffStage
  | begun
  | guarded
  | found (p : WriteOffProposal)
  | replayed
  | expiring (p : WriteOffProposal)
  | due (p : WriteOffProposal) (now : Instant)
  | counted (p : WriteOffProposal) (now : Instant)
  | read (x : Forgiven)
  | marketHeld (x : Forgiven)

structure WriteOffConfirming where
  began : Instant
  cmd : WriteOffCmd
  confirmer : String
  stage : WriteOffStage

namespace Forgiven

/-- The smaller of what was proposed and what is outstanding, if there is anything. -/
def ofRead (p : WriteOffProposal) (now : Instant) (row : ReceivableOutstanding) :
    Except Halt Forgiven :=
  let amount := min p.amountMicro row.outstandingMicro
  if h : 0 < amount then
    .ok { proposal := p, row := row, now := now, amountMicro := amount, positive := h
          ofProposal := min_le_left _ _, ofDebt := min_le_right _ _ }
  else .error (conflict "receivable is no longer open")

def movement (began : Instant) (confirmer : String) (x : Forgiven) : ReceivableMovement :=
  { receivable := x.proposal.receivable, kind := .writtenOff, amountMicro := x.amountMicro
    actor := confirmer, cashTxn := none, idempotencyKey := writeOffKey x.proposal.id
    createdAt := began, positive := x.positive }

/-- The compensating fact, anchored at the market's YES outcome. -/
def realization (x : Forgiven) : RealizationFact :=
  { ledgerKey := x.row.receivable.originReversalTxn, user := x.row.receivable.user
    outcome := ⟨x.row.receivable.market, .yes⟩, realizedDelta := x.amountMicro, payout := 0
    createdAt := x.now }

end Forgiven

variable {policy : OpsPolicy} {i : Nat} {db : OpsDb} {inputs : Inputs} {f f' : Flight σ Lock}
  {stage : WriteOffStage} {db' : OpsDb}

namespace WriteOffConfirming

variable {σ : Type}

def afterScreen (p : WriteOffProposal) (now : Instant) : Verdict → WriteOffStage
  | .replay => .replayed
  | .expire => .expiring p
  | .due => .due p now

def advance (policy : OpsPolicy) (i : Nat) (db : OpsDb) (inputs : Inputs)
    (x : WriteOffConfirming) (f : Flight σ Lock) : Except Halt (Flight σ Lock × WriteOffStage) :=
  match x.stage with
  | .begun => do
    let f ← f.hold i (.key (writeOffKey x.cmd.receivable))
    pure (f, .guarded)
  | .guarded => do
    let p ← okOr (db.writeOffByKey x.cmd.idempotencyKey) (conflict "no write-off proposed")
    let f ← f.hold i (.writeOff x.cmd.idempotencyKey)
    pure (f, .found p)
  | .found p => do
    let verdict ← (screen policy "write-off" p.status p.proposerTokenId x.confirmer
      p.confirmNotBefore inputs.now).mapError .refused
    pure (f, afterScreen p inputs.now verdict)
  | .due p now => do
    let writtenToday ← (db.writtenOffSince (dayStart now)).mapError refusedStore
    refuse (policy.writeoffDailyCapMicro < saturatingAdd writtenToday p.amountMicro)
      (.refused (.overCap policy.writeoffDailyCapMicro))
    pure (f, .counted p now)
  | .counted p now => do
    let row ← okOr (db.receivableById p.receivable) (refusedStore (.notFound "receivable"))
    let x ← Forgiven.ofRead p now row
    pure (f, .read x)
  | .read x => do
    -- the movement is inserted here, before the market row is locked
    refuse (x.row.receivable.market ∉ db.markets) (refusedStore (.notFound "market"))
    let f ← f.hold i (.market x.row.receivable.market)
    pure (f, .marketHeld x)
  | .replayed | .expiring _ | .marketHeld _ => .error .notReady

/-- The movement, the fact and the proposal's new status; or only the expiry. -/
def commit (db : OpsDb) (x : WriteOffConfirming) : Except Halt OpsDb :=
  match x.stage with
  | .replayed => .ok db
  | .expiring p => (db.saveWriteOff { p with status := .expired }).mapError refusedStore
  | .marketHeld y => (do
    let moved ← db.insertReceivableMovement (y.movement x.began x.confirmer)
    (moved.insertRealization y.realization).saveWriteOff
      { y.proposal with status := .confirmed, confirmerTokenId := some x.confirmer }).mapError
    refusedStore
  | _ => .error .notReady

/-- The statements of a confirmation that run, with what they saw. -/
inductive Next (policy : OpsPolicy) (i : Nat) (db : OpsDb) (inputs : Inputs)
    (x : WriteOffConfirming) (f : Flight σ Lock) : Flight σ Lock → WriteOffStage → Prop
  | guard (f' : Flight σ Lock) (hstage : x.stage = .begun)
      (hf : f.hold i (.key (writeOffKey x.cmd.receivable)) = (.ok f' : Except Halt _)) :
      Next policy i db inputs x f f' .guarded
  | find (f' : Flight σ Lock) (p : WriteOffProposal) (hstage : x.stage = .guarded)
      (hp : db.writeOffByKey x.cmd.idempotencyKey = some p)
      (hf : f.hold i (.writeOff x.cmd.idempotencyKey) = (.ok f' : Except Halt _)) :
      Next policy i db inputs x f f' (.found p)
  | screen (p : WriteOffProposal) (verdict : Verdict) (hstage : x.stage = .found p) :
      Next policy i db inputs x f f (afterScreen p inputs.now verdict)
  | count (p : WriteOffProposal) (now : Instant) (total : Int) (hstage : x.stage = .due p now)
      (htotal : db.writtenOffSince (dayStart now) = .ok total)
      (hcap : saturatingAdd total p.amountMicro ≤ policy.writeoffDailyCapMicro) :
      Next policy i db inputs x f f (.counted p now)
  | read (p : WriteOffProposal) (now : Instant) (row : ReceivableOutstanding) (y : Forgiven)
      (hstage : x.stage = .counted p now) (hrow : db.receivableById p.receivable = some row)
      (hproposal : y.proposal = p) (hdebt : y.row = row) :
      Next policy i db inputs x f f (.read y)
  | market (f' : Flight σ Lock) (y : Forgiven) (hstage : x.stage = .read y)
      (hf : f.hold i (.market y.row.receivable.market) = (.ok f' : Except Halt _)) :
      Next policy i db inputs x f f' (.marketHeld y)

variable {x : WriteOffConfirming}

theorem advance_next (h : x.advance policy i db inputs f = .ok (f', stage)) :
    Next policy i db inputs x f f' stage := by
  unfold advance at h
  cases hstage : x.stage with
  | begun =>
    simp only [hstage, ok_iff] at h
    obtain ⟨_, hf, rfl, rfl⟩ := h
    exact .guard _ hstage hf
  | guarded =>
    simp only [hstage, ok_iff] at h
    obtain ⟨p, hp, _, hf, rfl, rfl⟩ := h
    exact .find _ p hstage hp hf
  | found p =>
    simp only [hstage, ok_iff] at h
    obtain ⟨verdict, -, rfl, rfl⟩ := h
    exact .screen p verdict hstage
  | due p now =>
    simp only [hstage, ok_iff] at h
    obtain ⟨total, htotal, _, hcap, rfl, rfl⟩ := h
    exact .count p now total hstage htotal (not_lt.1 hcap)
  | counted p now =>
    simp only [hstage, ok_iff] at h
    obtain ⟨row, hrow, y, hy, rfl, rfl⟩ := h
    dsimp only [Forgiven.ofRead] at hy
    split_ifs at hy
    cases hy
    exact .read p now row _ hstage hrow rfl rfl
  | read y =>
    simp only [hstage, ok_iff] at h
    obtain ⟨_, -, _, hf, rfl, rfl⟩ := h
    exact .market _ y hstage hf
  | replayed | expiring | marketHeld => simp [hstage] at h

theorem Next.grown (h : Next policy i db inputs x f f' stage) : Flight.Grown f f' := by
  cases h with
  | guard _ _ hf | find _ _ _ _ hf | market _ _ _ hf => exact Flight.hold_grown hf
  | screen | count | read => exact Flight.Grown.refl f

/-- The ways a confirmation ends. -/
inductive Ended (db : OpsDb) (x : WriteOffConfirming) (db' : OpsDb) : Prop
  | kept (hmovements : db'.movements = db.movements) (hreceivables : db'.receivables = db.receivables)
      (hremedials : db'.remedials = db.remedials)
  | forgave (y : Forgiven) (hstage : x.stage = .marketHeld y)
      (hmovements : db'.movements = db.movements ++ [y.movement x.began x.confirmer])
      (hreceivables : db'.receivables = db.receivables)
      (hremedials : db'.remedials = db.remedials)

theorem commit_ended (h : x.commit db = .ok db') : Ended db x db' := by
  unfold commit at h
  cases hstage : x.stage with
  | replayed =>
    simp only [hstage, Except.ok.injEq] at h
    subst h
    exact .kept rfl rfl rfl
  | expiring =>
    simp only [hstage, mapError_eq_ok] at h
    obtain ⟨hmovements, hreceivables, hremedials⟩ := OpsDb.saveWriteOff_spec h
    exact .kept hmovements hreceivables hremedials
  | marketHeld y =>
    simp only [hstage, ok_iff] at h
    obtain ⟨moved, hmoved, hsaved⟩ := h
    obtain ⟨hm, hr, hc⟩ := OpsDb.insertReceivableMovement_spec hmoved
    obtain ⟨hm', hr', hc'⟩ := OpsDb.insertRealization_spec moved y.realization
    obtain ⟨hm'', hr'', hc''⟩ := OpsDb.saveWriteOff_spec hsaved
    exact .forgave y hstage (hm''.trans (hm'.trans hm)) (hr''.trans (hr'.trans hr))
      (hc''.trans (hc'.trans hc))
  | begun | guarded | found | due | counted | read => simp [hstage] at h

end WriteOffConfirming

namespace WriteOffProposing

variable {σ : Type}

theorem advance_grown {x : WriteOffProposing} {stage : WriteOffDraft}
    (h : x.advance policy i db inputs f = .ok (f', stage)) : Flight.Grown f f' := by
  unfold advance at h
  cases hstage : x.stage with
  | begun =>
    simp only [hstage, ok_iff] at h
    obtain ⟨_, hf, rfl, -⟩ := h
    exact Flight.hold_grown hf
  | guarded =>
    simp only [hstage] at h
    split at h
    · simp only [pure_eq_ok, Prod.mk.injEq] at h
      rw [h.1]
      exact Flight.Grown.refl f'
    · simp only [ok_iff] at h
      obtain ⟨_, hf, rfl, -⟩ := h
      exact Flight.hold_grown hf
  | absent =>
    simp only [hstage, ok_iff] at h
    obtain ⟨_, -, _, -, rfl, -⟩ := h
    exact Flight.Grown.refl f
  | replayed | prepared => simp [hstage] at h

theorem commit_spec {x : WriteOffProposing} (h : x.commit db = .ok db') :
    db'.movements = db.movements ∧ db'.receivables = db.receivables ∧
      db'.remedials = db.remedials := by
  unfold commit at h
  split at h
  · cases h
    exact ⟨rfl, rfl, rfl⟩
  · exact OpsDb.insertWriteOff_spec (mapError_eq_ok.1 h)
  · simp at h

end WriteOffProposing

end Opinions.Ops
