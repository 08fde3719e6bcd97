import Opinions.Ops.WriteOff

/-! Remedial credits (`application/src/ops/remedial_credit.rs`), statement by statement.
Proposing and confirming take the advisory lock of the market and the key the command
names. A confirmation reads the two totals its caps are checked against without a lock
and locks the ledger accounts only when it grants. -/

namespace Opinions.Ops

open Lib Lib.Result Model Store Trade Money Credit

structure RemedialCreditCmd where
  market : MarketId
  user : UserId
  amountMicro : Int
  reason : String
  idempotencyKey : String

/-- The key of the advisory lock and of the grant's posting. -/
def remedialKey (market : MarketId) (key : String) : String :=
  "remedial:" ++ uuidText market.uuid ++ ":" ++ key

def refuseLinked (db : OpsDb) (user : UserId) (digest : String) : Except Halt Unit := do
  let linked ← (db.linkedToPrincipal user digest).mapError refusedApp
  refuse (linked = true) (conflict "credit target is linked to a dual-control principal")

/-- Add an amount to a total within a cap. -/
def refuseOver (cap total amount : Int) : Except Halt Unit :=
  refuse (cap < saturatingAdd total amount) (.refused (.overCap cap))

inductive RemedialDraft
  | begun
  | guarded
  | absent
  | replayed
  | marketHeld
  | unlinked
  | prepared (p : RemedialCreditProposal)

structure RemedialProposing where
  cmd : RemedialCreditCmd
  proposer : String
  stage : RemedialDraft
  positive : 0 < cmd.amountMicro

namespace RemedialProposing

variable {σ : Type}

def prepare (policy : OpsPolicy) (inputs : Inputs) (x : RemedialProposing) :
    RemedialCreditProposal :=
  { id := inputs.freshId, market := x.cmd.market, user := x.cmd.user
    idempotencyKey := x.cmd.idempotencyKey, amountMicro := x.cmd.amountMicro
    proposerTokenId := x.proposer, confirmerTokenId := none, reason := x.cmd.reason
    status := .pending, confirmNotBefore := policy.confirmNotBefore inputs.now
    settledAt := none, positive := x.positive }

def advance (policy : OpsPolicy) (i : Nat) (db : OpsDb) (inputs : Inputs) (x : RemedialProposing)
    (f : Flight σ Lock) : Except Halt (Flight σ Lock × RemedialDraft) :=
  match x.stage with
  | .begun => do
    let f ← f.hold i (.key (remedialKey x.cmd.market x.cmd.idempotencyKey))
    pure (f, .guarded)
  | .guarded =>
    match db.remedialByKey x.cmd.idempotencyKey with
    | none => pure (f, .absent)
    | some _ => do
      let f ← f.hold i (.remedial x.cmd.idempotencyKey)
      pure (f, .replayed)
  | .absent => do
    refuse (x.cmd.market ∉ db.markets) (refusedStore (.notFound "market"))
    let f ← f.hold i (.market x.cmd.market)
    pure (f, .marketHeld)
  | .marketHeld => do
    refuseLinked db x.cmd.user x.proposer
    pure (f, .unlinked)
  | .unlinked => do
    let credited ← (db.remedialCreditedForMarket x.cmd.market).mapError refusedStore
    refuseOver policy.remedialMarketCapMicro credited x.cmd.amountMicro
    pure (f, .prepared (x.prepare policy inputs))
  | .replayed | .prepared _ => .error .notReady

def commit (db : OpsDb) (x : RemedialProposing) : Except Halt OpsDb :=
  match x.stage with
  | .replayed => .ok db
  | .prepared p => (db.insertRemedial p).mapError refusedStore
  | _ => .error .notReady

end RemedialProposing

inductive RemedialStage
  | begun
  | guarded
  | found (p : RemedialCreditProposal)
  | replayed
  | expiring (p : RemedialCreditProposal)
  | due (p : RemedialCreditProposal) (now : Instant)
  | unlinked (p : RemedialCreditProposal) (now : Instant)
  | marketCounted (p : RemedialCreditProposal) (now : Instant)
  | dayCounted (p : RemedialCreditProposal)
  | granted (p : RemedialCreditProposal)

structure RemedialConfirming where
  began : Instant
  cmd : RemedialCreditCmd
  confirmer : String
  stage : RemedialStage

def grantPosting (p : RemedialCreditProposal) : Posting :=
  { kind := .creditGrant, key := remedialKey p.market p.idempotencyKey
    entries := [⟨cash .house, -p.amountMicro⟩, ⟨cash (.user p.user), p.amountMicro⟩] }

variable {policy : OpsPolicy} {i : Nat} {db : OpsDb} {inputs : Inputs} {f f' : Flight σ Lock}
  {stage : RemedialStage} {db' : OpsDb}

namespace RemedialConfirming

variable {σ : Type}

def afterScreen (p : RemedialCreditProposal) (now : Instant) : Verdict → RemedialStage
  | .replay => .replayed
  | .expire => .expiring p
  | .due => .due p now

def advance (policy : OpsPolicy) (i : Nat) (db : OpsDb) (inputs : Inputs)
    (x : RemedialConfirming) (f : Flight σ Lock) : Except Halt (Flight σ Lock × RemedialStage) :=
  match x.stage with
  | .begun => do
    let f ← f.hold i (.key (remedialKey x.cmd.market x.cmd.idempotencyKey))
    pure (f, .guarded)
  | .guarded => do
    let p ← okOr (db.remedialByKey x.cmd.idempotencyKey) (conflict "no remedial credit proposed")
    let f ← f.hold i (.remedial x.cmd.idempotencyKey)
    pure (f, .found p)
  | .found p => do
    let verdict ← (screen policy "remedial credit" p.status p.proposerTokenId x.confirmer
      p.confirmNotBefore inputs.now).mapError .refused
    pure (f, afterScreen p inputs.now verdict)
  | .due p now => do
    refuseLinked db p.user x.confirmer
    pure (f, .unlinked p now)
  | .unlinked p now => do
    let marketTotal ← (db.remedialCreditedForMarket p.market).mapError refusedStore
    refuseOver policy.remedialMarketCapMicro marketTotal p.amountMicro
    pure (f, .marketCounted p now)
  | .marketCounted p now => do
    let dailyTotal ← (db.remedialCreditedSince (dayStart now)).mapError refusedStore
    refuseOver policy.remedialDailyCapMicro dailyTotal p.amountMicro
    pure (f, .dayCounted p)
  | .dayCounted p => do
    let f ← (grantPosting p).locks.foldlM (fun f k => f.hold i k) f
    let _ ← ((grantPosting p).apply db.ledger).mapError refusedStore
    pure (f, .granted p)
  | .replayed | .expiring _ | .granted _ => .error .notReady

/-- The grant and the proposal's new status; or only the expiry. -/
def commit (db : OpsDb) (x : RemedialConfirming) : Except Halt OpsDb :=
  match x.stage with
  | .replayed => .ok db
  | .expiring p => (db.saveRemedial x.began { p with status := .expired }).mapError refusedStore
  | .granted p => (do
    let ledger ← (grantPosting p).apply db.ledger
    OpsDb.saveRemedial { db with ledger := ledger } x.began
      { p with status := .confirmed, confirmerTokenId := some x.confirmer }).mapError refusedStore
  | _ => .error .notReady

/-- The statements of a confirmation that run, with what they saw. -/
inductive Next (policy : OpsPolicy) (i : Nat) (db : OpsDb) (inputs : Inputs)
    (x : RemedialConfirming) (f : Flight σ Lock) : Flight σ Lock → RemedialStage → Prop
  | guard (f' : Flight σ Lock) (hstage : x.stage = .begun) (hgrown : Flight.Grown f f') :
      Next policy i db inputs x f f' .guarded
  | find (f' : Flight σ Lock) (p : RemedialCreditProposal) (hstage : x.stage = .guarded)
      (hp : db.remedialByKey x.cmd.idempotencyKey = some p) (hgrown : Flight.Grown f f') :
      Next policy i db inputs x f f' (.found p)
  | screen (p : RemedialCreditProposal) (verdict : Verdict) (hstage : x.stage = .found p) :
      Next policy i db inputs x f f (afterScreen p inputs.now verdict)
  | unlink (p : RemedialCreditProposal) (now : Instant) (hstage : x.stage = .due p now) :
      Next policy i db inputs x f f (.unlinked p now)
  | countMarket (p : RemedialCreditProposal) (now : Instant) (total : Int)
      (hstage : x.stage = .unlinked p now)
      (htotal : db.remedialCreditedForMarket p.market = .ok total)
      (hcap : saturatingAdd total p.amountMicro ≤ policy.remedialMarketCapMicro) :
      Next policy i db inputs x f f (.marketCounted p now)
  | countDay (p : RemedialCreditProposal) (now : Instant) (total : Int)
      (hstage : x.stage = .marketCounted p now)
      (htotal : db.remedialCreditedSince (dayStart now) = .ok total)
      (hcap : saturatingAdd total p.amountMicro ≤ policy.remedialDailyCapMicro) :
      Next policy i db inputs x f f (.dayCounted p)
  | grant (f' : Flight σ Lock) (p : RemedialCreditProposal) (hstage : x.stage = .dayCounted p)
      (hgrown : Flight.Grown f f') : Next policy i db inputs x f f' (.granted p)

variable {x : RemedialConfirming}

theorem advance_next (h : x.advance policy i db inputs f = .ok (f', stage)) :
    Next policy i db inputs x f f' stage := by
  unfold advance at h
  cases hstage : x.stage with
  | begun =>
    simp only [hstage, ok_iff] at h
    obtain ⟨_, hf, rfl, rfl⟩ := h
    exact .guard _ hstage (Flight.hold_grown hf)
  | guarded =>
    simp only [hstage, ok_iff] at h
    obtain ⟨p, hp, _, hf, rfl, rfl⟩ := h
    exact .find _ p hstage hp (Flight.hold_grown hf)
  | found p =>
    simp only [hstage, ok_iff] at h
    obtain ⟨verdict, -, rfl, rfl⟩ := h
    exact .screen p verdict hstage
  | due p now =>
    simp only [hstage, ok_iff] at h
    obtain ⟨_, -, rfl, rfl⟩ := h
    exact .unlink p now hstage
  | unlinked p now =>
    simp only [hstage, refuseOver, ok_iff] at h
    obtain ⟨total, htotal, _, hcap, rfl, rfl⟩ := h
    exact .countMarket p now total hstage htotal (not_lt.1 hcap)
  | marketCounted p now =>
    simp only [hstage, refuseOver, ok_iff] at h
    obtain ⟨total, htotal, _, hcap, rfl, rfl⟩ := h
    exact .countDay p now total hstage htotal (not_lt.1 hcap)
  | dayCounted p =>
    simp only [hstage, ok_iff] at h
    obtain ⟨_, hf, _, -, rfl, rfl⟩ := h
    exact .grant _ p hstage (Flight.holdAll_grown hf)
  | replayed | expiring | granted => simp [hstage] at h

theorem Next.grown (h : Next policy i db inputs x f f' stage) : Flight.Grown f f' := by
  cases h with
  | guard _ _ hgrown | find _ _ _ _ hgrown | grant _ _ _ hgrown => exact hgrown
  | screen | unlink | countMarket | countDay => exact Flight.Grown.refl f

/-- The ways a confirmation ends: nothing is written, or the status of its proposal. -/
inductive Ended (db : OpsDb) (x : RemedialConfirming) (db' : OpsDb) : Prop
  | kept (hmovements : db'.movements = db.movements)
      (hreceivables : db'.receivables = db.receivables) (hremedials : db'.remedials = db.remedials)
  | saved (p q : RemedialCreditProposal) (hid : q.id = p.id)
      (hstage : x.stage = .granted p ∨ x.stage = .expiring p ∧ q.status ≠ .confirmed)
      (hmovements : db'.movements = db.movements)
      (hreceivables : db'.receivables = db.receivables)
      (hremedials : db'.remedials =
        Lib.Rows.update RemedialCreditProposal.id q.id (OpsDb.savedRemedial x.began q)
          db.remedials)

theorem commit_ended (h : x.commit db = .ok db') : Ended db x db' := by
  unfold commit at h
  cases hstage : x.stage with
  | replayed =>
    simp only [hstage, Except.ok.injEq] at h
    subst h
    exact .kept rfl rfl rfl
  | expiring p =>
    simp only [hstage, mapError_eq_ok] at h
    obtain ⟨hmovements, hreceivables, hremedials⟩ := OpsDb.saveRemedial_spec h
    exact .saved p { p with status := .expired } rfl (Or.inr ⟨hstage, by simp⟩) hmovements
      hreceivables hremedials
  | granted p =>
    simp only [hstage, ok_iff] at h
    obtain ⟨ledger, -, hsaved⟩ := h
    obtain ⟨hmovements, hreceivables, hremedials⟩ := OpsDb.saveRemedial_spec hsaved
    exact .saved p { p with status := .confirmed, confirmerTokenId := some x.confirmer } rfl
      (Or.inl hstage) hmovements hreceivables hremedials
  | begun | guarded | found | due | unlinked | marketCounted | dayCounted => simp [hstage] at h

end RemedialConfirming

namespace RemedialProposing

variable {σ : Type}

/-- A statement only takes locks; what is prepared is a pending proposal. -/
theorem advance_spec {x : RemedialProposing} {stage : RemedialDraft}
    (h : x.advance policy i db inputs f = .ok (f', stage)) :
    Flight.Grown f f' ∧ ∀ p, stage = .prepared p → p.status = .pending := by
  unfold advance at h
  cases hstage : x.stage with
  | begun =>
    simp only [hstage, ok_iff] at h
    obtain ⟨_, hf, rfl, rfl⟩ := h
    exact ⟨Flight.hold_grown hf, (by rintro _ ⟨⟩)⟩
  | guarded =>
    simp only [hstage] at h
    split at h
    · cases h
      exact ⟨Flight.Grown.refl f, (by rintro _ ⟨⟩)⟩
    · simp only [ok_iff] at h
      obtain ⟨_, hf, rfl, rfl⟩ := h
      exact ⟨Flight.hold_grown hf, (by rintro _ ⟨⟩)⟩
  | absent =>
    simp only [hstage, ok_iff] at h
    obtain ⟨_, -, _, hf, rfl, rfl⟩ := h
    exact ⟨Flight.hold_grown hf, (by rintro _ ⟨⟩)⟩
  | marketHeld =>
    simp only [hstage, ok_iff] at h
    obtain ⟨_, -, rfl, rfl⟩ := h
    exact ⟨Flight.Grown.refl f, (by rintro _ ⟨⟩)⟩
  | unlinked =>
    simp only [hstage, ok_iff] at h
    obtain ⟨_, -, _, -, rfl, rfl⟩ := h
    refine ⟨Flight.Grown.refl f, fun p hp => ?_⟩
    obtain rfl := RemedialDraft.prepared.inj hp
    rfl
  | replayed | prepared => simp [hstage] at h

theorem commit_spec {x : RemedialProposing} (h : x.commit db = .ok db') :
    db'.movements = db.movements ∧ db'.receivables = db.receivables ∧
      (db'.remedials = db.remedials ∨
        ∃ p, x.stage = .prepared p ∧ db'.remedials = db.remedials ++ [p]) := by
  unfold commit at h
  split at h
  · cases h
    exact ⟨rfl, rfl, Or.inl rfl⟩
  · next p hstage =>
    obtain ⟨hmovements, hreceivables, hremedials⟩ := OpsDb.insertRemedial_spec (mapError_eq_ok.1 h)
    exact ⟨hmovements, hreceivables, Or.inr ⟨p, hstage, hremedials⟩⟩
  · simp at h

end RemedialProposing

end Opinions.Ops
