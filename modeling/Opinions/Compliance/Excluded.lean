import Opinions.Compliance.Gate
import Opinions.Compliance.SelfExclusion
import Opinions.Vote.Cast

/-! How long a self-exclusion keeps its user out. The platform's tables stand side by side
over one ledger; each money operation asks the gate about its user, and every other
transaction may write anything but the exclusions and the proposals. The row stays until
two people lift it, but the gate compares its end with the clock. -/

namespace Opinions.Compliance

open Lib.Result Lib.Rows Lib.Run Model Store Config Trade Money Deposit Credit Vote

/-- The ledger is the store's; the other tables' copies of it are not looked at. -/
structure World where
  store : Store
  votes : VoteDb
  deposits : DepositDb
  credits : CreditDb
  compliance : ComplianceDb

/-- A money operation, with what it reads outside the tables. The gate reads the clock for
itself where `gateNow` is given. -/
inductive Operation
  | trade (reads : GateReads) (gateNow : Instant) (rep : RepConfig) (facts : TradeFacts)
      (cmd : PlaceTradeCmd)
  | vote (reads : GateReads) (gateNow : Instant) (cfg : VoteIntegrityConfig) (facts : VoteFacts)
      (cmd : CastVoteCmd)
  | admitObserved (reads : GateReads) (now : Instant) (facts : AdmitFacts) (sig : String)
      (actor : Money.AdminContext) (reevaluateHold : Bool)
  | admitByHand (hash : String → String) (facts : ConfirmFacts) (proposal : Uuid)
      (actor : Money.AdminContext)
  | grant (reads : GateReads) (facts : GrantFacts) (cmd : GrantCreditCmd)
  | referral (reads : UserId → GateReads) (facts : ReferralFacts) (cmd : GrantReferralCmd)
  | referralOnPaid (reads : UserId → GateReads) (facts : ReferralFacts) (cmd : GrantReferralCmd)

namespace World

def onDeposits {α : Type} (w : World) (f : DepositDb → Except AppError (α × DepositDb)) :
    Except AppError (α × World) := do
  let (a, deposits) ← f { w.deposits with ledger := w.store.ledger }
  pure (a, { w with store := { w.store with ledger := deposits.ledger }, deposits := deposits })

def onCredits {α : Type} (w : World) (f : CreditDb → Except AppError (α × CreditDb)) :
    Except AppError (α × World) := do
  let (a, credits) ← f { w.credits with ledger := w.store.ledger }
  pure (a, { w with store := { w.store with ledger := credits.ledger }, credits := credits })

/-- The admission's reads about the user of the deposit, from the tables. -/
def admitFacts (w : World) (reads : GateReads) (now : Instant) (facts : AdmitFacts)
    (sig : String) : AdmitFacts :=
  match w.deposits.depositMachineBySig sig with
  | some { user := some user, amount, .. } =>
    { facts with
      banned := (w.compliance.lockUser user).map fun row => row.status = .banned
      gate := enforceMoneyMutation reads w.compliance user .depositAdmit amount now }
  | _ => facts

def referralFacts (w : World) (reads : UserId → GateReads) (grantedAt : Instant)
    (facts : ReferralFacts) : ReferralFacts :=
  { facts with gate := fun user => grantGate (reads user) w.compliance user 0 grantedAt }

/-- The operation, and whether it booked anything new. -/
def perform (w : World) : Operation → Except AppError (Bool × World)
  | .trade reads gateNow rep facts cmd => do
    let gate := enforceMoneyMutation reads w.compliance cmd.user .placeTrade cmd.amountMicro gateNow
    let (receipt, store) ← placeTrade rep { facts with gate := gate } cmd w.store
    pure (!receipt.replayed, { w with store := store })
  | .vote reads gateNow cfg facts cmd => do
    let gate := enforceMoneyMutation reads w.compliance cmd.user .castVote 0 gateNow
    let (receipt, store, votes) ← castVote cfg { facts with gate := gate } cmd (w.store, w.votes)
    pure (!receipt.replayed, { w with store := store, votes := votes })
  | .admitObserved reads now facts sig actor reevaluateHold => do
    let (receipt, w') ← w.onDeposits
      (admitObserved (w.admitFacts reads now facts sig) sig actor reevaluateHold)
    pure (!receipt.replayed && (w'.deposits.depositMachineById receipt.depositId).any
      fun r => r.status = .admitted, w')
  | .admitByHand hash facts proposal actor => do
    let (_, w') ← w.onDeposits (confirmManualDepositAdmission hash facts proposal actor)
    pure (true, w')
  | .grant reads facts cmd => do
    let gate := grantGate reads w.compliance cmd.user cmd.amount cmd.grantedAt
    let (receipt, w') ← w.onCredits (grantCredit { facts with gate := gate } cmd)
    pure (!receipt.replayed, w')
  | .referral reads facts cmd =>
    w.onCredits (grantReferral (w.referralFacts reads cmd.grantedAt facts) cmd)
  | .referralOnPaid reads facts cmd =>
    w.onCredits (grantReferralOnPaid (w.referralFacts reads cmd.grantedAt facts) cmd)

/-- The user of the deposit a proposal is about. -/
def proposedUser (w : World) (proposal : Uuid) : Option UserId := do
  let p ← find MoneyProposal.id proposal w.deposits.proposals
  let row ← w.deposits.depositMachineById ⟨p.subjectId⟩
  row.user

def users (w : World) : Operation → List UserId
  | .trade _ _ _ _ cmd => [cmd.user]
  | .vote _ _ _ _ cmd => [cmd.user]
  | .admitObserved _ _ _ sig _ _ => ((w.deposits.depositMachineBySig sig).bind
      DepositMachineRow.user).toList
  | .admitByHand _ _ proposal _ => (w.proposedUser proposal).toList
  | .grant _ _ cmd => [cmd.user]
  | .referral _ facts _ | .referralOnPaid _ facts _ =>
    facts.parties.elim [] fun pair => [pair.1, pair.2]

end World

/-- The instant the gate compares with; an admission by hand does not ask it. -/
def Operation.gateInstant : Operation → Option Instant
  | .trade _ gateNow _ _ _ => some gateNow
  | .vote _ gateNow _ _ _ => some gateNow
  | .admitObserved _ now _ _ _ _ => some now
  | .admitByHand _ _ _ _ => none
  | .grant _ _ cmd => some cmd.grantedAt
  | .referral _ _ cmd | .referralOnPaid _ _ cmd => some cmd.grantedAt

/-! ### Each operation asks the gate -/

theorem placeTrade_gate {rep : RepConfig} {facts : TradeFacts} {cmd : PlaceTradeCmd} {s s' : Store}
    {receipt : TradeReceipt} (h : placeTrade rep facts cmd s = .ok (receipt, s'))
    (hnew : receipt.replayed = false) : facts.gate = .ok () := by
  rcases placeTrade_cases h with ⟨hreplayed, -⟩ | ⟨b, -⟩
  · rw [hreplayed] at hnew
    cases hnew
  · have hpriced := b.priced
    simp only [priceTrade, bind_eq_ok] at hpriced
    obtain ⟨_, hgate, -⟩ := hpriced
    exact hgate

theorem castVote_gate {cfg : VoteIntegrityConfig} {facts : VoteFacts} {cmd : CastVoteCmd}
    {db db' : Store × VoteDb} {receipt : VoteReceipt}
    (h : castVote cfg facts cmd db = .ok (receipt, db')) (hnew : receipt.replayed = false) :
    facts.gate = .ok () := by
  simp only [castVote, bind_eq_ok] at h
  obtain ⟨_, -, h⟩ := h
  split at h
  · simp only [replayVote, ok_iff] at h
    obtain ⟨_, ⟨_, -, _, -, rfl⟩, rfl, -⟩ := h
    cases hnew
  · simp only [bind_eq_ok] at h
    obtain ⟨_, -, _, hgate, -⟩ := h
    exact hgate

variable {receipt : DepositReceipt} {row : DepositMachineRow} {cmd : GrantReferralCmd}
  {grantedAt now : Instant} {op : Operation}

theorem holdAdmission_status {collected : Int} {db db' : DepositDb}
    (h : holdAdmission row collected db = .ok (receipt, db')) :
    ((db'.depositMachineById receipt.depositId).any fun r => r.status = .admitted) = false := by
  simp only [holdAdmission, DepositDb.casDepositStatus, ok_iff] at h
  obtain ⟨_, ⟨_, -, _, -, rfl⟩, rfl, rfl⟩ := h
  have hfind : find DepositMachineRow.id row.id (update DepositMachineRow.id row.id
      (fun r => { r with status := .complianceHold }) db.deposits) =
      (find DepositMachineRow.id row.id db.deposits).map
        fun r => { r with status := .complianceHold } := find_update_self fun _ => rfl
  rw [DepositDb.depositMachineById, DepositDb.writeDeposit, hfind]
  cases find DepositMachineRow.id row.id db.deposits <;> rfl

theorem decideAdmission_gate {facts : AdmitFacts} {db db' : DepositDb}
    (h : decideAdmission facts row db = .ok (receipt, db'))
    (hadmitted : ((db'.depositMachineById receipt.depositId).any
      fun r => r.status = .admitted) = true) : facts.gate = .ok () := by
  have hheld {row : DepositMachineRow} {collected : Int} {db : DepositDb}
      (hhold : holdAdmission row collected db = .ok (receipt, db')) : facts.gate = .ok () := by
    rw [holdAdmission_status hhold] at hadmitted
    cases hadmitted
  unfold decideAdmission at h
  split at h
  · exact hheld h
  · simp only [bind_eq_ok] at h
    obtain ⟨flagged, -, h⟩ := h
    split_ifs at h with hflagged
    · exact hheld h
    · simp only [bind_eq_ok] at h
      obtain ⟨⟨collected, ledger⟩, -, banned, -, h⟩ := h
      split at h
      · split_ifs at h
        exact hheld h
      · rename_i hgate
        cases banned with
        | true => cases hgate
        | false => exact hgate

theorem admitObserved_gate {facts : AdmitFacts} {sig : String} {actor : Money.AdminContext}
    {reevaluateHold : Bool} {db db' : DepositDb}
    (h : admitObserved facts sig actor reevaluateHold db = .ok (receipt, db'))
    (hnew : receipt.replayed = false)
    (hadmitted : ((db'.depositMachineById receipt.depositId).any
      fun r => r.status = .admitted) = true) : facts.gate = .ok () := by
  have hopen {row : DepositMachineRow} (hopens : admitOpen facts row db = .ok (receipt, db')) :
      facts.gate = .ok () := by
    simp only [admitOpen, bind_eq_ok] at hopens
    obtain ⟨_, -, hdecide⟩ := hopens
    exact decideAdmission_gate hdecide hadmitted
  have hseen {row : DepositMachineRow}
      (hanswer : (pure (existingReceipt row, db) : Except AppError _) = .ok (receipt, db')) :
      facts.gate = .ok () := by
    rw [pure_eq_ok, Prod.mk.injEq] at hanswer
    rw [← hanswer.1] at hnew
    cases hnew
  simp only [admitObserved, bind_eq_ok] at h
  obtain ⟨_, -, row, -, h⟩ := h
  split at h
  · exact hseen h
  · exact hseen h
  · split_ifs at h
    · exact hopen h
    · exact hseen h
  · cases h
  · cases h
  · cases h
  · exact hopen h
  · exact hopen h

variable {db db' : CreditDb}

theorem grantCredit_gate {facts : GrantFacts} {cmd : GrantCreditCmd} {receipt : GrantReceipt}
    (h : grantCredit facts cmd db = .ok (receipt, db')) (hnew : receipt.replayed = false) :
    facts.gate = .ok () := by
  unfold grantCredit at h
  split at h
  · simp only [replayGrant, ok_iff] at h
    obtain ⟨_, -, _, -, rfl, -⟩ := h
    cases hnew
  · simp only [ok_iff] at h
    obtain ⟨_, -, _, hgate, -⟩ := h
    exact hgate

variable {user : UserId}

theorem mem_lockOrder {pair : UserId × UserId} :
    user ∈ lockOrder pair ↔ user = pair.1 ∨ user = pair.2 := by
  unfold lockOrder
  split_ifs <;> simp [or_comm]

variable {facts : ReferralFacts}

theorem grantReferral_gate (h : grantReferral facts cmd db = .ok (true, db')) :
    ∃ pair, facts.parties = some pair ∧ ∀ user ∈ lockOrder pair, facts.gate user = .ok () := by
  simp only [grantReferral, bind_eq_ok] at h
  obtain ⟨bind, -, pair, hpair, _, -, h⟩ := h
  refine ⟨pair, okOr_eq_ok.1 hpair, ?_⟩
  split at h
  · simp only [ok_iff] at h
    obtain ⟨_, -, hfalse, -⟩ := h
    cases hfalse
  · simp only [bind_eq_ok] at h
    obtain ⟨_, -, _, -, _, -, _, -, _, -, _, hgate, -⟩ := h
    intro user huser
    have hone := forM_eq_ok.1 hgate user huser
    rwa [mapError_eq_ok] at hone

theorem gateAndConvert_gate {bind : Uuid} {users : List UserId}
    (h : gateAndConvert facts bind grantedAt users db = .ok (true, db')) :
    ∀ user ∈ users, facts.gate user = .ok () := by
  induction users generalizing db with
  | nil => simp
  | cons user users ih =>
    unfold gateAndConvert at h
    split at h
    · cases h
    · cases h
    · simp only [bind_eq_ok] at h
      obtain ⟨_, -, hrest⟩ := h
      exact List.forall_mem_cons.2 ⟨‹_›, ih hrest⟩

theorem grantReferralOnPaid_gate (h : grantReferralOnPaid facts cmd db = .ok (true, db')) :
    ∃ pair, facts.parties = some pair ∧ ∀ user ∈ lockOrder pair, facts.gate user = .ok () := by
  unfold grantReferralOnPaid at h
  split at h
  · cases h
  · simp only [bind_eq_ok] at h
    obtain ⟨pair, hpair, h⟩ := h
    refine ⟨pair, okOr_eq_ok.1 hpair, ?_⟩
    by_cases hmatch : referralPairMatches pair (pair.1, cmd.referee) = false
    · rw [if_pos hmatch] at h
      cases h
    · rw [if_neg hmatch] at h
      split at h
      · simp only [ok_iff] at h
        obtain ⟨_, -, hfalse, -⟩ := h
        cases hfalse
      · split_ifs at h
        · cases h
        · simp only [bind_eq_ok] at h
          obtain ⟨policy, -, ⟨passed, converted⟩, hgates, h⟩ := h
          cases passed with
          | false => cases h
          | true => exact gateAndConvert_gate hgates

variable {w w' : World}

section Perform

variable {α : Type}

theorem World.onDeposits_spec {f : DepositDb → Except AppError (α × DepositDb)} {a : α}
    (h : w.onDeposits f = .ok (a, w')) :
    f { w.deposits with ledger := w.store.ledger } = .ok (a, w'.deposits) ∧
      w'.compliance = w.compliance := by
  simp only [World.onDeposits, ok_iff] at h
  obtain ⟨⟨_, _⟩, hf, rfl, rfl⟩ := h
  exact ⟨hf, rfl⟩

theorem World.onCredits_spec {f : CreditDb → Except AppError (α × CreditDb)} {a : α}
    (h : w.onCredits f = .ok (a, w')) :
    f { w.credits with ledger := w.store.ledger } = .ok (a, w'.credits) ∧
      w'.compliance = w.compliance := by
  simp only [World.onCredits, ok_iff] at h
  obtain ⟨⟨_, _⟩, hf, rfl, rfl⟩ := h
  exact ⟨hf, rfl⟩

/-- No money operation writes the compliance tables. -/
theorem World.perform_compliance {booked : Bool} (h : w.perform op = .ok (booked, w')) :
    w'.compliance = w.compliance := by
  cases op with
  | trade =>
    simp only [perform, ok_iff] at h
    obtain ⟨⟨_, _⟩, -, -, rfl⟩ := h
    rfl
  | vote =>
    simp only [perform, ok_iff] at h
    obtain ⟨⟨_, _, _⟩, -, -, rfl⟩ := h
    rfl
  | admitObserved | admitByHand =>
    simp only [perform, ok_iff] at h
    obtain ⟨⟨_, _⟩, hopens, -, rfl⟩ := h
    exact (onDeposits_spec hopens).2
  | grant =>
    simp only [perform, ok_iff] at h
    obtain ⟨⟨_, _⟩, hgrant, -, rfl⟩ := h
    exact (onCredits_spec hgrant).2
  | referral | referralOnPaid => exact (onCredits_spec h).2

/-- Both referral grants ask the gate about both parties. -/
theorem referralFacts_gate {reads : UserId → GateReads}
    (hgate : ∃ pair, (w.referralFacts reads grantedAt facts).parties = some pair ∧
      ∀ user ∈ lockOrder pair, (w.referralFacts reads grantedAt facts).gate user = .ok ())
    (huser : user ∈ facts.parties.elim [] fun pair => [pair.1, pair.2]) :
    w.compliance.selfExcluded user grantedAt = false := by
  obtain ⟨pair, hpair, hgate⟩ := hgate
  rw [World.referralFacts] at hpair
  rw [hpair, Option.elim_some, List.mem_cons, List.mem_singleton] at huser
  exact (enforceMoneyMutation_spec (grantGate_eq_ok (hgate user (mem_lockOrder.2 huser)))).1

/-- Whoever something is booked for was not self-excluded when the gate looked. -/
theorem World.perform_gated (h : w.perform op = .ok (true, w')) (huser : user ∈ w.users op)
    (hnow : op.gateInstant = some now) : w.compliance.selfExcluded user now = false := by
  cases op with
  | trade =>
    simp only [perform, Bool.not_eq_true', ok_iff] at h
    obtain ⟨⟨_, _⟩, htrade, hnew, -⟩ := h
    obtain rfl := List.mem_singleton.1 huser
    cases hnow
    exact (enforceMoneyMutation_spec (placeTrade_gate htrade hnew)).1
  | vote =>
    simp only [perform, Bool.not_eq_true', ok_iff] at h
    obtain ⟨⟨_, _, _⟩, hvote, hnew, -⟩ := h
    obtain rfl := List.mem_singleton.1 huser
    cases hnow
    exact (enforceMoneyMutation_spec (castVote_gate hvote hnew)).1
  | admitObserved =>
    simp only [perform, Bool.and_eq_true, Bool.not_eq_true', ok_iff] at h
    obtain ⟨⟨_, _⟩, hopens, ⟨hnew, hadmitted⟩, rfl⟩ := h
    cases hnow
    have hgate := admitObserved_gate (onDeposits_spec hopens).1 hnew hadmitted
    simp only [users, Option.mem_toList, Option.bind_eq_some_iff] at huser
    obtain ⟨row, hrow, hrowUser⟩ := huser
    obtain ⟨id, _, amount, _, _, _, _, _, _, _, _, _, _⟩ := row
    subst hrowUser
    rw [admitFacts, hrow] at hgate
    exact (enforceMoneyMutation_spec hgate).1
  | admitByHand => cases hnow
  | grant =>
    simp only [perform, Bool.not_eq_true', ok_iff] at h
    obtain ⟨⟨_, _⟩, hgrant, hnew, -⟩ := h
    obtain rfl := List.mem_singleton.1 huser
    cases hnow
    exact (enforceMoneyMutation_spec (grantGate_eq_ok
      (grantCredit_gate (onCredits_spec hgrant).1 hnew))).1
  | referral =>
    cases hnow
    exact referralFacts_gate (grantReferral_gate (onCredits_spec h).1) huser
  | referralOnPaid =>
    cases hnow
    exact referralFacts_gate (grantReferralOnPaid_gate (onCredits_spec h).1) huser

end Perform

/-! ### Runs -/

inductive Action
  | perform (op : Operation)
  | startSelfExclusion (user : UserId) (coolingOff : Int) (now : Instant) (freshId : Uuid)
  | proposeLift (facts : StatusFacts) (actor : Money.AdminContext) (exclusion : Uuid) (reason : String)
  | confirmLift (facts : StatusFacts) (actor : Money.AdminContext) (proposal : Uuid)
  | status (cmd : StatusCommand)
  | elsewhere (write : World → World)

namespace World

/-- The exclusions and the proposals as they were, whatever else was written. -/
def keeping (w next : World) : World :=
  { next with compliance := { next.compliance with
      exclusions := w.compliance.exclusions
      proposals := w.compliance.proposals } }

def withCompliance {α : Type} (w : World) (result : Except AppError (α × ComplianceDb)) :
    Except AppError World :=
  result.map fun answer => { w with compliance := answer.2 }

def step (w : World) : Action → Except AppError World
  | .perform op => (w.perform op).map Prod.snd
  | .startSelfExclusion user coolingOff now freshId =>
    w.withCompliance (Compliance.startSelfExclusion user coolingOff now freshId w.compliance)
  | .proposeLift facts actor exclusion reason =>
    w.withCompliance (Compliance.proposeLift facts actor exclusion reason w.compliance)
  | .confirmLift facts actor proposal =>
    w.withCompliance (Compliance.confirmLift facts actor proposal w.compliance)
  | .status cmd => (statusStep w.compliance cmd).map fun db => { w with compliance := db }
  | .elsewhere write => .ok (w.keeping (write w))

end World

/-- The lifts proposed so far: which exclusion, and by whom. -/
def ComplianceDb.lifts (db : ComplianceDb) : List (Uuid × String) :=
  (db.proposals.filter fun p => p.kind = liftSelfExclusionKind).map
    fun p => (p.subjectId, p.proposerTokenId)

theorem lifts_withConfirmer (db : ComplianceDb) (id : Uuid) (confirmer : String) :
    (db.withConfirmer id confirmer).lifts = db.lifts := by
  simp only [ComplianceDb.lifts, ComplianceDb.withConfirmer, update, List.filter_map, List.map_map]
  have hkind (p : MoneyProposal) :
      (if p.id = id then DepositDb.confirmed confirmer p else p).kind = p.kind := by
    unfold DepositDb.confirmed
    split_ifs <;> rfl
  have hfilter : ((fun p : MoneyProposal => decide (p.kind = liftSelfExclusionKind)) ∘
      fun p => if p.id = id then DepositDb.confirmed confirmer p else p) =
      fun p => decide (p.kind = liftSelfExclusionKind) := by
    funext p
    rw [Function.comp_apply, hkind]
  rw [hfilter]
  refine List.map_congr_left fun p _ => ?_
  unfold DepositDb.confirmed
  dsimp only [Function.comp_apply]
  split_ifs <;> rfl

/-- What an accepted action does to the exclusions and the proposed lifts. -/
inductive Excludes (db db' : ComplianceDb) : Action → Prop
  | untouched (a : Action) (exclusions : db'.exclusions = db.exclusions)
      (lifts : db'.lifts = db.lifts) : Excludes db db' a
  | started (user : UserId) (coolingOff : Int) (now : Instant) (freshId : Uuid)
      (fresh : freshId ∉ db.exclusions.map SelfExclusion.id)
      (exclusions : db'.exclusions =
        db.exclusions ++ [.starting user coolingOff now freshId])
      (lifts : db'.lifts = db.lifts) :
      Excludes db db' (.startSelfExclusion user coolingOff now freshId)
  | proposed (facts : StatusFacts) (digest reason : String) (role : Money.AdminRole) (e : SelfExclusion)
      (found : find SelfExclusion.id e.id db.exclusions = some e)
      (elapsed : e.coolingOffUntil ≤ facts.now) (exclusions : db'.exclusions = db.exclusions)
      (lifts : db'.lifts = db.lifts ++ [(e.id, digest)]) :
      Excludes db db' (.proposeLift facts (.admin digest role) e.id reason)
  | lifted (facts : StatusFacts) (digest : String) (role : Money.AdminRole) (p : MoneyProposal)
      (e : SelfExclusion) (confirmed : Lifts db facts digest p e)
      (exclusions : db'.exclusions =
        update SelfExclusion.id e.id (·.lifted facts.now) db.exclusions)
      (lifts : db'.lifts = db.lifts) :
      Excludes db db' (.confirmLift facts (.admin digest role) p.id)

theorem statusStep_untouched {db db' : ComplianceDb} {cmd : StatusCommand}
    (h : statusStep db cmd = .ok db') : db'.exclusions = db.exclusions ∧ db'.lifts = db.lifts := by
  cases statusStep_handled h with
  | replayed | shadowed => exact ⟨rfl, rfl⟩
  | proposed facts digest role user target reason replay kind epoch ofTarget =>
    have hkind : kind ≠ liftSelfExclusionKind := by
      rintro rfl
      cases target <;> simp [statusKind, liftSelfExclusionKind] at ofTarget
    simp [ComplianceDb.lifts, newProposal, hkind]
  | confirmed facts digest role p =>
    exact ⟨rfl, lifts_withConfirmer db p.id digest⟩

variable {a : Action}

theorem World.step_excludes (h : w.step a = .ok w') : Excludes w.compliance w'.compliance a := by
  cases a with
  | perform =>
    obtain ⟨booked, hop⟩ := map_snd_eq_ok.1 h
    have hsame := World.perform_compliance hop
    exact .untouched _ (hsame ▸ rfl) (hsame ▸ rfl)
  | startSelfExclusion user coolingOff now freshId =>
    obtain ⟨⟨e, db'⟩, hstart, rfl⟩ := map_eq_ok.1 h
    obtain ⟨rfl, -, hfresh, rfl⟩ := startSelfExclusion_spec hstart
    exact .started user coolingOff now freshId hfresh rfl rfl
  | proposeLift facts actor exclusion reason =>
    obtain ⟨⟨p, db'⟩, hpropose, rfl⟩ := map_eq_ok.1 h
    rcases proposeLift_spec hpropose with rfl | ⟨digest, role, e, rfl, hfound, helapsed, rfl⟩
    · exact .untouched _ rfl rfl
    · obtain rfl : e.id = exclusion := key_of_find hfound
      refine .proposed facts digest reason role e hfound helapsed rfl ?_
      simp [ComplianceDb.lifts, liftProposal, newProposal]
  | confirmLift facts =>
    obtain ⟨⟨e', db'⟩, hconfirm, rfl⟩ := map_eq_ok.1 h
    obtain ⟨digest, role, p, e, rfl, rfl, hlifts, rfl⟩ := confirmLift_spec hconfirm
    exact .lifted facts digest role p e hlifts rfl (lifts_withConfirmer _ _ _)
  | status =>
    obtain ⟨db', hstep, rfl⟩ := map_eq_ok.1 h
    obtain ⟨hexclusions, hlifts⟩ := statusStep_untouched hstep
    exact .untouched _ hexclusions hlifts
  | elsewhere =>
    cases h
    exact .untouched _ rfl rfl

/-- The lift of an exclusion, proposed by `proposer` at or after the end of its cooling-off. -/
def LiftProposed (start : World) (history : List Action) (exclusion : Uuid) (until_ : Instant)
    (proposer : String) : Prop :=
  ∃ before facts role reason, AcceptedAfter World.step start history before
    (.proposeLift facts (.admin proposer role) exclusion reason) ∧ until_ ≤ facts.now

/-- In the history, one principal proposed to lift the exclusion and another one confirmed
it, both at or after the end of its cooling-off. -/
def LiftedIn (start : World) (history : List Action) (e : SelfExclusion) : Prop :=
  ∃ before facts digest role proposal proposer, AcceptedAfter World.step start history before
      (.confirmLift facts (.admin digest role) proposal) ∧ e.coolingOffUntil ≤ facts.now ∧
    proposer ≠ digest ∧ LiftProposed start before e.id e.coolingOffUntil proposer

variable {start : World} {history : List Action}

theorem LiftProposed.append {exclusion : Uuid} {until_ : Instant} {proposer : String}
    (h : LiftProposed start history exclusion until_ proposer) (more : List Action) :
    LiftProposed start (history ++ more) exclusion until_ proposer := by
  obtain ⟨before, facts, role, reason, haccepted, htime⟩ := h
  exact ⟨before, facts, role, reason, haccepted.append more, htime⟩

variable {e : SelfExclusion}

theorem LiftedIn.append (h : LiftedIn start history e) (more : List Action) :
    LiftedIn start (history ++ more) e := by
  obtain ⟨before, facts, digest, role, proposal, proposer, haccepted, h⟩ := h
  exact ⟨before, facts, digest, role, proposal, proposer, haccepted.append more, h⟩

/-- Ids are distinct, and every proposed lift is of an exclusion whose cooling-off had
ended when it was proposed. -/
structure Orderly (start : World) (history : List Action) (w : World) : Prop where
  ids : (w.compliance.exclusions.map SelfExclusion.id).Nodup
  lifts : ∀ l ∈ w.compliance.lifts, ∃ e ∈ w.compliance.exclusions, e.id = l.1 ∧
    LiftProposed start history l.1 e.coolingOffUntil l.2

theorem Orderly.append (h : Orderly start history w) (more : List Action) :
    Orderly start (history ++ more) w := by
  refine ⟨h.ids, fun l hl => ?_⟩
  obtain ⟨e, he, hid, hproposed⟩ := h.lifts l hl
  exact ⟨e, he, hid, hproposed.append more⟩

theorem Orderly.step (h : Orderly start history (run World.step start history))
    (hstep : (run World.step start history).step a = .ok w') :
    Orderly start (history ++ [a]) w' := by
  have haccepted := acceptedAfter_last hstep
  have h' := h.append [a]
  cases World.step_excludes hstep with
  | untouched _ exclusions lifts =>
    refine ⟨exclusions ▸ h'.ids, ?_⟩
    rw [exclusions, lifts]
    exact h'.lifts
  | started user coolingOff now freshId fresh exclusions lifts =>
    refine ⟨?_, fun l hl => ?_⟩
    · rw [exclusions, List.map_append, List.map_singleton]
      have happend := h.ids.concat fresh
      rwa [List.concat_eq_append] at happend
    · obtain ⟨e, he, hl⟩ := h'.lifts l (lifts ▸ hl)
      exact ⟨e, exclusions ▸ List.mem_append_left _ he, hl⟩
  | proposed facts digest reason role e found elapsed exclusions lifts =>
    refine ⟨exclusions ▸ h.ids, fun l hl => ?_⟩
    rw [lifts, mem_concat] at hl
    rcases hl with hl | rfl
    · rw [exclusions]
      exact h'.lifts l hl
    · exact ⟨e, exclusions ▸ mem_of_find found, rfl, history, facts, role, reason, haccepted,
        elapsed⟩
  | lifted facts digest role p e confirmed exclusions lifts =>
    have hids : w'.compliance.exclusions.map SelfExclusion.id =
        (run World.step start history).compliance.exclusions.map SelfExclusion.id := by
      rw [exclusions]
      exact map_key_update fun _ => rfl
    refine ⟨hids ▸ h.ids, fun l hl => ?_⟩
    obtain ⟨x, hx, hid, hproposed⟩ := h'.lifts l (lifts ▸ hl)
    rw [exclusions]
    refine ⟨_, mem_update.2 ⟨x, hx, rfl⟩, ?_⟩
    split_ifs
    · exact ⟨hid, hproposed⟩
    · exact ⟨hid, hproposed⟩

theorem orderly_run (hexclusions : start.compliance.exclusions = [])
    (hproposals : start.compliance.proposals = []) (history : List Action) :
    Orderly start history (run World.step start history) := by
  refine run_remembers (P := Orderly start) ?_ ?_ ?_ history
  · exact ⟨by simp [hexclusions], by simp [ComplianceDb.lifts, hproposals]⟩
  · exact fun history a w' h hstep => h.step hstep
  · exact fun history a h => h.append [a]

/-- An exclusion leaves the table unlifted only by a lift of two people. -/
theorem Orderly.lifted_of_gone (h : Orderly start history (run World.step start history))
    (hstep : (run World.step start history).step a = .ok w')
    (he : e ∈ (run World.step start history).compliance.exclusions)
    (hgone : e ∉ w'.compliance.exclusions) : LiftedIn start (history ++ [a]) e := by
  have haccepted := acceptedAfter_last hstep
  cases World.step_excludes hstep with
  | untouched _ exclusions => exact absurd (exclusions ▸ he) hgone
  | started user coolingOff now freshId fresh exclusions =>
    exact absurd (exclusions ▸ List.mem_append_left _ he) hgone
  | proposed facts digest reason role x found elapsed exclusions =>
    exact absurd (exclusions ▸ he) hgone
  | lifted facts digest role p x confirmed exclusions =>
    have hx : e.id = x.id := by
      by_contra hne
      refine hgone ?_
      rw [exclusions]
      exact mem_update.2 ⟨e, he, if_neg hne⟩
    have hsubject : x.id = p.subjectId := key_of_find confirmed.about
    have hfound := find_of_mem h.ids he
    rw [hx, hsubject, confirmed.about, Option.some.injEq] at hfound
    subst hfound
    have hmem : (p.subjectId, p.proposerTokenId) ∈
        (run World.step start history).compliance.lifts :=
      List.mem_map.2 ⟨p, List.mem_filter.2 ⟨mem_of_find confirmed.found, by simp [confirmed.kind]⟩,
        rfl⟩
    obtain ⟨y, hy, hyid, hproposed⟩ := h.lifts _ hmem
    obtain rfl : y = x := by
      have hfoundy := find_of_mem h.ids hy
      rw [hyid, confirmed.about, Option.some.injEq] at hfoundy
      exact hfoundy.symm
    exact ⟨history, facts, digest, role, p.id, p.proposerTokenId, haccepted, confirmed.elapsed,
      confirmed.distinct, hsubject ▸ hproposed⟩

/-! ### The exclusion holds while its end is ahead -/

/-- The gate is asked about the user only before the end of each exclusion of theirs that is
not lifted, and none of their deposits is admitted by hand. -/
def inTime (user : UserId) (w : World) : Action → Bool
  | .perform op => user ∈ w.users op →
      op.gateInstant.any fun now => (w.compliance.unlifted user).all
        fun e => now < e.coolingOffUntil
  | _ => true

/-- Nothing new is booked for the user by the action. -/
def KeptOut (w : World) (a : Action) (user : UserId) : Prop :=
  ∀ op w', a = .perform op → w.perform op = .ok (true, w') → user ∉ w.users op

theorem keptOut_of_unlifted (he : e ∈ w.compliance.exclusions) (hopen : e.liftedAt = none)
    (htime : inTime e.user w a) : KeptOut w a e.user := by
  rintro op w' rfl hop huser
  simp only [inTime, huser, forall_true_left, decide_eq_true_eq] at htime
  obtain ⟨now, hnow, hall⟩ := Option.any_eq_true _ _ |>.1 htime
  have hmem : e ∈ w.compliance.unlifted e.user := by simp [ComplianceDb.unlifted, he, hopen]
  obtain ⟨x, hx⟩ := Option.ne_none_iff_exists'.1 fun hnone =>
    List.ne_nil_of_mem hmem (ComplianceDb.activeSelfExclusion_eq_none.1 hnone)
  have hlate := elapsed_of_not_selfExcluded (World.perform_gated hop huser hnow) hx
  have hearly := List.all_eq_true.1 hall x (List.argmax_mem hx)
  rw [decide_eq_true_eq] at hearly
  exact absurd hearly (not_lt.2 hlate)

/-- While no lift is in the history, the exclusion stands. -/
theorem stands_until_lifted {w₁ : World} (hexclusions : start.compliance.exclusions = [])
    (hproposals : start.compliance.proposals = []) {before : List Action} {coolingOff : Int}
    {freshId : Uuid} (hstart : (run World.step start before).step
      (.startSelfExclusion user coolingOff now freshId) = .ok w₁) (mid : List Action) :
    LiftedIn start (before ++ .startSelfExclusion user coolingOff now freshId :: mid)
        (.starting user coolingOff now freshId) ∨
      SelfExclusion.starting user coolingOff now freshId ∈
        (run World.step w₁ mid).compliance.exclusions := by
  have hrun (mid : List Action) :
      run World.step start (before ++ .startSelfExclusion user coolingOff now freshId :: mid) =
        run World.step w₁ mid := by
    rw [run_append, run_cons, attempt_of_ok hstart]
  refine run_remembers (P := fun mid w =>
    LiftedIn start (before ++ .startSelfExclusion user coolingOff now freshId :: mid)
        (.starting user coolingOff now freshId) ∨
      SelfExclusion.starting user coolingOff now freshId ∈ (World.compliance w).exclusions)
    ?_ ?_ ?_ mid
  · obtain ⟨⟨e, db'⟩, hstarted, rfl⟩ := map_eq_ok.1 hstart
    obtain ⟨rfl, -, -, rfl⟩ := startSelfExclusion_spec hstarted
    exact .inr (List.mem_append_right _ (List.mem_singleton_self _))
  · intro mid a w' h hstep
    rcases h with h | h
    · exact .inl (by simpa using h.append [a])
    · by_cases hgone : SelfExclusion.starting user coolingOff now freshId ∈ w'.compliance.exclusions
      · exact .inr hgone
      · have horder := orderly_run hexclusions hproposals
          (before ++ .startSelfExclusion user coolingOff now freshId :: mid)
        rw [← hrun] at hstep h
        exact .inl (by simpa using horder.lifted_of_gone hstep h hgone)
  · rintro mid a (h | h)
    · exact .inl (by simpa using h.append [a])
    · exact .inr h

/-- From its start until two people have lifted it, an exclusion keeps its user out. -/
theorem self_exclusion_lasts (start w₁ : World) (hexclusions : start.compliance.exclusions = [])
    (hproposals : start.compliance.proposals = []) (before after : List Action) (user : UserId)
    (coolingOff : Int) (now : Instant) (freshId : Uuid)
    (hstart : (run World.step start before).step
      (.startSelfExclusion user coolingOff now freshId) = .ok w₁)
    (htime : Along World.step (fun w a => inTime user w a = true) w₁ after)
    (mid rest : List Action) (a : Action) (hafter : after = mid ++ a :: rest) :
    LiftedIn start (before ++ .startSelfExclusion user coolingOff now freshId :: mid)
        (.starting user coolingOff now freshId) ∨
      KeptOut (run World.step w₁ mid) a user := by
  subst hafter
  refine (stands_until_lifted hexclusions hproposals hstart mid).imp_right fun hstands => ?_
  exact keptOut_of_unlifted hstands rfl htime.here
/-! ### Before and after the end of the cooling-off -/

/-- A funded, cleared user before a live market. -/
def sampleWorld : World :=
  { store := run Store.step Store.empty (sampleRun.take 3)
    votes := ⟨[], [], []⟩, deposits := .empty, credits := .empty, compliance := sampleStart }

def clearReads : GateReads :=
  { requiredKycTier := some 1, geo := some (.clear 0 1000 "1")
    sanctions := some (.clear 0 1000 "1")
    depositLimitMicro := none, pauseDeposits := some (some false)
    shadowTradeCapMicro := some 25000000, shadowDepositCapMicro := some 25000000 }

/-- The user excludes themselves at 0 until 5. -/
def sampleExclude : Action := .startSelfExclusion sampleUser 5 0 1

def sampleBuy (gateNow : Instant) : Operation :=
  .trade clearReads gateNow flatRep plainFacts
    ⟨⟨1#128⟩, sampleUser, .yes, .buy, 500000, "buy", some 0⟩

def sampleExcluded : World := attempt World.step sampleWorld sampleExclude

/-- The exclusion stands, nobody has proposed to lift it, and the trade is booked. -/
theorem traded_while_excluded :
    sampleWorld.step sampleExclude = .ok sampleExcluded ∧
      SelfExclusion.starting sampleUser 5 0 1 ∈ sampleExcluded.compliance.exclusions ∧
      sampleExcluded.compliance.proposals = [] ∧
      (∃ w', sampleExcluded.perform (sampleBuy 10) = .ok (true, w')) ∧
      sampleUser ∈ sampleExcluded.users (sampleBuy 10) := by
  have hbooked : (sampleExcluded.perform (sampleBuy 10)).toOption.map Prod.fst = some true := by
    decide +kernel
  refine ⟨rfl, by decide +kernel, rfl, ?_, by decide +kernel⟩
  cases h : sampleExcluded.perform (sampleBuy 10) with
  | error => rw [h] at hbooked; cases hbooked
  | ok r =>
    rw [h] at hbooked
    obtain ⟨booked, w'⟩ := r
    exact ⟨w', by rw [show booked = true from Option.some.inj hbooked]⟩

theorem kept_out_before_the_end :
    LiftedIn sampleWorld [sampleExclude] (.starting sampleUser 5 0 1) ∨
      KeptOut sampleExcluded (.perform (sampleBuy 3)) sampleUser :=
  self_exclusion_lasts sampleWorld sampleExcluded rfl rfl [] [.perform (sampleBuy 3)] sampleUser 5 0
    1 rfl (by decide +kernel) [] [] _ rfl

end Opinions.Compliance
