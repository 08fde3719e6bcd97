import Opinions.Compliance.Excluded
import Opinions.Money.Dual

/-! Identity (`application/src/money/kyc.rs`). An authenticated delivery appends an event
with a horizon and writes its tier on the user's row; the money gates read the tier on
the row and no horizon. Whoever passes has the tier the gate asks for, and the tier is
the one of the last accepted event; that the event is still valid is not looked at. -/

namespace Opinions.Compliance.Identity

open Lib.Result Lib.Rows Lib.Run Model Store Trade Money Deposit

def kycTierNone : Int := 0

def kycTierFull : Int := 2

structure KycEvent where
  id : Uuid
  user : UserId
  fromTier : Option Int
  toTier : Int
  providerRef : Option String
  at' : Instant
  validUntil : Option Instant
  policyVersion : String

/-- A drop to no tier is a hit; an unknown tier, no horizon or a passed one is
indeterminate. -/
def kycVerdict (event : KycEvent) (now : Instant) : ScreenVerdict :=
  if event.toTier = kycTierNone ∧ kycTierNone < event.fromTier.getD 0 then .hit
  else if event.toTier < kycTierNone ∨ kycTierFull < event.toTier then .indeterminate
  else
    match event.validUntil with
    | none => .indeterminate
    | some expiresAt =>
      if expiresAt ≤ now then .indeterminate
      else .clear event.at' expiresAt event.policyVersion

def KycEvent.lapsed (event : KycEvent) (now : Instant) : Bool :=
  event.validUntil.any fun expiresAt => expiresAt ≤ now

structure InboxRecord where
  provider : String
  eventId : String
  payloadHash : String
  userId : Option UserId

inductive InboxOutcome
  | accepted
  | replay
  | conflict

def inboxAlgebra (existing : Option InboxRecord) (incoming : InboxRecord) : InboxOutcome :=
  match existing with
  | none => .accepted
  | some prior => if prior.payloadHash = incoming.payloadHash then .replay else .conflict

/-- What a delivery says about the user. -/
structure Assertion where
  toTier : Int
  providerRef : Option String
  validUntil : Option Instant
  policyVersion : String

/-! ### The tables -/

/-- The platform, the withdrawals and the identity tables. The ledger is the platform's. -/
structure World where
  platform : Compliance.World
  money : MoneyDb
  kycEvents : List KycEvent
  inbox : List InboxRecord

def withTier (tier : Int) (row : UserComplianceRow) : UserComplianceRow :=
  { row with kycTier := tier }

def latestKyc (events : List KycEvent) (user : UserId) : Option KycEvent :=
  (events.filter fun e => decide (e.user = user)).getLast?

namespace World

def users (w : World) : List UserComplianceRow := w.platform.compliance.users

def setKycTier (w : World) (user : UserId) (tier : Int) : World :=
  { w with platform := { w.platform with compliance := { w.platform.compliance with
      users := update UserComplianceRow.user user (withTier tier) w.platform.compliance.users } } }

def inboxGet (w : World) (provider eventId : String) : Option InboxRecord :=
  w.inbox.find? fun r => decide (r.provider = provider ∧ r.eventId = eventId)

def persistKycEvent (w : World) (event : KycEvent) : World :=
  { w with kycEvents := w.kycEvents ++ [event] }.setKycTier event.user event.toTier

/-- Append the event and write its tier, under the lock of the user's row. -/
def applyKyc (w : World) (user : UserId) (a : Assertion) (now : Instant) (freshId : Uuid) :
    Except StoreError World := do
  let row ← w.platform.compliance.lockUser user
  pure (w.persistKycEvent
    { id := freshId, user := user, fromTier := some row.kycTier, toTier := a.toTier
      providerRef := a.providerRef, at' := now, validUntil := a.validUntil
      policyVersion := a.policyVersion })

/-- `accept_and_apply_inboxed_kyc`: the acceptance and its effect in one transaction. -/
def acceptAndApplyInboxedKyc (w : World) (record : InboxRecord) (a : Assertion) (now : Instant)
    (freshId : Uuid) : Except AppError (InboxOutcome × World) := do
  let user ← okOr record.userId (.store (.notFound "provider mapping"))
  match inboxAlgebra (w.inboxGet record.provider record.eventId) record with
  | .replay => pure (.replay, w)
  | .conflict => .error (.proposalConflict "inbox payload hash conflict")
  | .accepted =>
    let applied ← ({ w with inbox := w.inbox ++ [record] }.applyKyc user a now freshId).mapError
      AppError.store
    pure (.accepted, applied)

/-! ### The operations behind the gates -/

def onMoney {α : Type} (w : World) (f : MoneyDb → Except AppError (α × MoneyDb)) :
    Except AppError (α × World) := do
  let (a, money) ← f { w.money with ledger := w.platform.store.ledger }
  pure (a, { w with
    platform := { w.platform with store := { w.platform.store with ledger := money.ledger } }
    money := money })

/-- `user_money_view`: the user's row, and the end of an exclusion as the store reports it. -/
def userMoneyView (w : World) (user : UserId) (selfExcludedUntil : Option Instant) :
    Except StoreError UserMoneyView := do
  let row ← w.platform.compliance.lockUser user
  pure { status := row.status, kycTier := row.kycTier, selfExcludedUntil := selfExcludedUntil }

def moneyFacts (w : World) (facts : MoneyFacts) (user : UserId) (until' : Option Instant) :
    MoneyFacts :=
  { facts with view := w.userMoneyView user until' }

end World

inductive Action
  | deliver (record : InboxRecord) (a : Assertion) (now : Instant) (freshId : Uuid)
  | apply (user : UserId) (a : Assertion) (now : Instant) (freshId : Uuid)
  | operate (op : Operation)
  | request (d : Digests) (facts : RequestFacts) (until' : Option Instant)
      (cmd : RequestWithdrawCmd)
  | decide (d : Digests) (facts : MoneyFacts) (until' : Option Instant) (actor : Money.AdminContext)
      (id : WithdrawalId) (user : UserId) (cmd : DecideCmd)
  | send (facts : SendFacts) (until' : Option Instant) (id : WithdrawalId) (user : UserId)
  | elsewhere (write : World → World)

namespace World

/-- Whatever else is written: the tiers, the events and the inbox stay. -/
def keeping (w next : World) : World :=
  { next with
    platform := { next.platform with compliance := { next.platform.compliance with
      users := w.users.map fun row =>
        row.withStatus ((next.platform.compliance.statusOf row.user).getD row.status) } }
    kycEvents := w.kycEvents
    inbox := w.inbox }

/-- The state after an action, and whether it let money move: a new booking, an accepted
request, an approval, or the claim of an approved withdrawal for its first send. -/
def perform (w : World) : Action → Except AppError (Bool × World)
  | .deliver record a now freshId => do
    let (_, w') ← w.acceptAndApplyInboxedKyc record a now freshId
    pure (false, w')
  | .apply user a now freshId => do
    let w' ← (w.applyKyc user a now freshId).mapError .store
    pure (false, w')
  | .operate op => do
    let (booked, platform) ← w.platform.perform op
    pure (booked, { w with platform := platform })
  | .request d facts until' cmd => do
    let (receipt, w') ← w.onMoney (requestWithdraw d
      { facts with money := w.moneyFacts facts.money cmd.user until' } cmd)
    pure (!receipt.replayed && !receipt.refused, w')
  | .decide d facts until' actor id user cmd => do
    let (row, w') ← w.onMoney (decideWithdraw d (w.moneyFacts facts user until') actor id user cmd)
    pure (decide (row.combo = .w2), w')
  | .send facts until' id user => do
    let claims := (w.money.withdrawal id).any fun row => row.combo = .w2
    let (_, w') ← w.onMoney (sendWithdraw
      { facts with money := w.moneyFacts facts.money user until' } id user)
    pure (claims, w')
  | .elsewhere write => .ok (false, w.keeping (write w))

def step (w : World) (a : Action) : Except AppError World := (w.perform a).map Prod.snd

/-- Whose identity an action relies on, the tier its gate asks for, and when. -/
def demand (w : World) : Action → Option (UserId × Int × Instant)
  | .operate (.trade reads gateNow _ _ cmd) =>
    reads.requiredKycTier.map fun tier => (cmd.user, tier, gateNow)
  | .operate (.admitObserved reads now _ sig _ _) => do
    let row ← w.platform.deposits.depositMachineBySig sig
    let user ← row.user
    let tier ← reads.requiredKycTier
    pure (user, tier, now)
  | .request _ facts _ cmd =>
    facts.money.limits.toOption.map fun l => (cmd.user, l.withdrawKycTier, facts.money.now)
  | .decide _ facts _ _ _ user _ =>
    facts.limits.toOption.map fun l => (user, l.withdrawKycTier, facts.now)
  | .send facts _ _ user =>
    facts.money.limits.toOption.map fun l => (user, l.withdrawKycTier, facts.money.now)
  | _ => none

end World

/-! ### Every gate asks for the tier -/

variable {user : UserId} {now : Instant} {tier : Int} {receipt : WithdrawalReceipt} {d : Digests}
  {reasons : List String} {r : WithdrawalRow} {id : WithdrawalId} {w w' : World} {a : Action}

theorem enforceMoneyMutation_tier {reads : GateReads} {db : ComplianceDb} {kind : MoneyMutation}
    {amountMicro : Int} (h : enforceMoneyMutation reads db user kind amountMicro now = .ok ())
    (hkind : kind = .placeTrade ∨ kind = .depositAdmit) (htier : reads.requiredKycTier = some tier) :
    ∃ row, db.lockUser user = .ok row ∧ tier ≤ row.kycTier := by
  simp only [enforceMoneyMutation, readGateSnapshot, snapshotOf, decideMoneyMutation,
    requiredConfig, htier, okOr_some, Except.ok.injEq, exists_eq_left', ok_iff] at h
  obtain ⟨_, ⟨row, hrow, _, -, _, -, _, -, rfl⟩, _, -, _, -, hdecide⟩ := h
  refine ⟨row, hrow, ?_⟩
  rcases hkind with rfl | rfl
  · simp only [decideTrade, ok_iff] at hdecide
    obtain ⟨_, hkyc, -⟩ := hdecide
    exact not_lt.1 hkyc
  · simp only [decideDeposit, ok_iff] at hdecide
    obtain ⟨_, -, _, hkyc, -⟩ := hdecide
    exact not_lt.1 hkyc

variable {cmd : RequestWithdrawCmd} {view : UserMoneyView} {limits : WithdrawLimits}
  {db db' : MoneyDb} {facts : MoneyFacts} {row : WithdrawalRow}

theorem admissionRefusal_tier (h : admissionRefusal cmd limits view = none) :
    limits.withdrawKycTier ≤ view.kycTier := by
  unfold admissionRefusal at h
  split_ifs at h with _ _ hkyc
  exact not_lt.1 hkyc

theorem persistReceipt_receipt {fingerprint : String} {r : WithdrawalReceipt}
    (h : persistReceipt cmd fingerprint receipt db = .ok (r, db')) : r = receipt := by
  simp only [persistReceipt, ok_iff] at h
  obtain ⟨_, -, _, -, rfl, -⟩ := h
  rfl

theorem requestWithdraw_tier {facts : RequestFacts}
    (h : requestWithdraw d facts cmd db = .ok (receipt, db')) (hnew : receipt.replayed = false)
    (haccepted : receipt.refused = false) (hlimits : facts.money.limits = .ok limits) :
    ∃ view, facts.money.view = .ok view ∧ limits.withdrawKycTier ≤ view.kycTier := by
  have hrefused {dest fingerprint code message : String} {db : MoneyDb}
      (hstore : persistReceipt cmd fingerprint (refusal cmd dest code message) db =
        .ok (receipt, db')) :
      ∃ view, facts.money.view = .ok view ∧ limits.withdrawKycTier ≤ view.kycTier := by
    rw [persistReceipt_receipt hstore] at haccepted
    cases haccepted
  simp only [requestWithdraw, bind_eq_ok] at h
  obtain ⟨dest, -, _, -, h⟩ := h
  split at h
  · rw [pure_eq_ok, Prod.mk.injEq] at h
    rw [← h.1] at hnew
    cases hnew
  · simp only [bind_eq_ok] at h
    obtain ⟨_, -, h⟩ := h
    split at h
    · exact hrefused h
    · simp only [revalidateAndHold, hlimits, Except.ok.injEq, exists_eq_left', ok_iff] at h
      obtain ⟨_, -, view, hview, h⟩ := h
      split at h
      · exact hrefused h
      · next hadmitted => exact ⟨view, hview, admissionRefusal_tier hadmitted⟩

/-- A tier too low is among the live reasons, and is a hard one. -/
theorem mem_liveReasons_of_low (h : liveReasons db facts row limits view = .ok reasons)
    (hlow : view.kycTier < limits.withdrawKycTier) : "kyc_not_eligible" ∈ reasons := by
  simp only [liveReasons, ok_iff] at h
  obtain ⟨_, -, _, -, rfl⟩ := h
  simp [reasonIf, hlow]

theorem tier_of_not_hard (h : liveReasons db facts row limits view = .ok reasons)
    (hhard : ¬reasons.any hardGate) : limits.withdrawKycTier ≤ view.kycTier := by
  by_contra hlow
  refine hhard (List.any_eq_true.2 ⟨_, mem_liveReasons_of_low h (not_le.1 hlow), ?_⟩)
  decide

theorem decided_row {start : Combo} {next : WithdrawalRow} {actor : String}
    (h : decided facts start next actor db = .ok (r, db')) : r = next := by
  simp only [decided, ok_iff] at h
  obtain ⟨_, -, rfl, -⟩ := h
  rfl

section Approvals

variable {actor : Money.AdminContext}

theorem machine_tier (h : machine facts row db = .ok (r, db')) (happroved : r.combo = .w2)
    (hlimits : facts.limits = .ok limits) :
    ∃ view, facts.view = .ok view ∧ limits.withdrawKycTier ≤ view.kycTier := by
  simp only [machine, hlimits, Except.ok.injEq, exists_eq_left', ok_iff] at h
  obtain ⟨_, -, view, hview, current, hcurrent, h⟩ := h
  refine ⟨view, hview, ?_⟩
  rw [decided_row h] at happroved
  by_contra hlow
  have hreason := mem_liveReasons_of_low hcurrent (not_le.1 hlow)
  have hblocks : blocksAutoApprove (unionReasons row.riskReasons current) = true := by
    simpa [blocksAutoApprove] using
      List.ne_nil_of_mem (mem_unionReasons.2 (.inr hreason))
  simp only [hblocks, if_true] at happroved
  cases happroved

theorem financeApprove_tier {reason : String}
    (h : financeApprove facts row actor reason db = .ok (r, db'))
    (hlimits : facts.limits = .ok limits) :
    ∃ view, facts.view = .ok view ∧ limits.withdrawKycTier ≤ view.kycTier := by
  simp only [financeApprove, hlimits, Except.ok.injEq, exists_eq_left', Bool.or_eq_true, not_or,
    ok_iff] at h
  obtain ⟨_, -, _, -, _, -, _, -, view, hview, live, hlive, _, ⟨hhard, -⟩, -⟩ := h
  exact ⟨view, hview, tier_of_not_hard hlive hhard⟩

theorem confirmDual_tier (h : confirmDual d facts row actor db = .ok (r, db'))
    (hlimits : facts.limits = .ok limits) :
    ∃ view, facts.view = .ok view ∧ limits.withdrawKycTier ≤ view.kycTier := by
  simp only [confirmDual, hlimits, Except.ok.injEq, exists_eq_left', ok_iff] at h
  obtain ⟨_, -, _, -, _, -, _, -, _, -, _, -, _, -, _, -, view, hview, live, hlive, _, hhard, -⟩ := h
  exact ⟨view, hview, tier_of_not_hard hlive hhard⟩

/-- Whatever approves a withdrawal has seen the tier. -/
theorem decideWithdraw_tier {cmd : DecideCmd}
    (h : decideWithdraw d facts actor id user cmd db = .ok (r, db')) (happroved : r.combo = .w2)
    (hlimits : facts.limits = .ok limits) :
    ∃ view, facts.view = .ok view ∧ limits.withdrawKycTier ≤ view.kycTier := by
  simp only [decideWithdraw, bind_eq_ok] at h
  obtain ⟨row, -, h⟩ := h
  have hother {start : Combo} {next : WithdrawalRow} {actor : String} {db : MoneyDb}
      (hdecided : decided facts start next actor db = .ok (r, db')) (hcombo : next.combo ≠ .w2) :
      ∃ view, facts.view = .ok view ∧ limits.withdrawKycTier ≤ view.kycTier := by
    rw [decided_row hdecided] at happroved
    exact absurd happroved hcombo
  cases cmd with
  | machine =>
    simp only [decideRow, bind_eq_ok] at h
    obtain ⟨_, -, h⟩ := h
    exact machine_tier h happroved hlimits
  | financeApprove => exact financeApprove_tier h hlimits
  | confirmDual => exact confirmDual_tier h hlimits
  | proposeDual =>
    simp only [decideRow, proposeDual, bind_eq_ok] at h
    obtain ⟨_, -, _, -, digest, -, h⟩ := h
    split_ifs at h with hproposed
    · simp only [ok_iff] at h
      obtain ⟨_, -, _, -, rfl, -⟩ := h
      rw [hproposed] at happroved
      cases happroved
    · simp only [bind_eq_ok] at h
      obtain ⟨_, -, _, -, h⟩ := h
      exact hother h (by decide : Combo.w5 ≠ Combo.w2)
  | expireProposal =>
    simp only [decideRow, expireProposal, bind_eq_ok] at h
    obtain ⟨_, -, _, -, _, -, _, -, _, -, h⟩ := h
    exact hother h (by decide : Combo.w4 ≠ Combo.w2)
  | deny =>
    simp only [decideRow, deny, ok_iff] at h
    obtain ⟨_, -, _, -, target, htarget, _, -, _, -, h⟩ := h
    refine hother h fun htwo => ?_
    have hdenied := (Combo.denyTarget_spec htarget).2.2
    rw [show target = .w2 from htwo] at hdenied
    cases hdenied

end Approvals

theorem sendWithdraw_tier {facts : SendFacts} {sent : Sent}
    (h : sendWithdraw facts id user db = .ok (sent, db'))
    (hclaims : ((db.withdrawal id).any fun row => row.combo = .w2) = true)
    (hlimits : facts.money.limits = .ok limits) :
    ∃ view, facts.money.view = .ok view ∧ limits.withdrawKycTier ≤ view.kycTier := by
  simp only [sendWithdraw, bind_eq_ok] at h
  obtain ⟨row, hrow, h⟩ := h
  obtain ⟨hfound, hid⟩ := lockedRow_spec hrow
  have hcombo : row.combo = .w2 := by
    rw [hid] at hfound
    simpa [hfound] using hclaims
  rw [hcombo, if_neg (by decide), if_neg (by decide), if_neg (by decide)] at h
  simp only [ensureSendAllowed, hlimits, Except.ok.injEq, exists_eq_left', ok_iff] at h
  obtain ⟨_, -, _, ⟨view, hview, _, -, _, -, _, -, _, hkyc, -⟩, -⟩ := h
  exact ⟨view, hview, not_lt.1 hkyc⟩

/-! ### What an action does -/

section Perform

theorem World.onMoney_spec {α : Type} {f : MoneyDb → Except AppError (α × MoneyDb)} {a : α}
    (h : w.onMoney f = .ok (a, w')) :
    (∃ money, f { w.money with ledger := w.platform.store.ledger } = .ok (a, money)) ∧
      w'.users = w.users ∧ w'.kycEvents = w.kycEvents := by
  simp only [onMoney, ok_iff] at h
  obtain ⟨⟨_, money⟩, hf, rfl, rfl⟩ := h
  exact ⟨⟨money, hf⟩, rfl, rfl⟩

theorem userMoneyView_tier {until' : Option Instant} (h : w.userMoneyView user until' = .ok view) :
    ∃ row, w.platform.compliance.lockUser user = .ok row ∧ row.kycTier = view.kycTier := by
  simp only [World.userMoneyView, ok_iff] at h
  obtain ⟨row, hrow, rfl⟩ := h
  exact ⟨row, hrow, rfl⟩

theorem toOption_map_eq_some {ε α β : Type} {x : Except ε α} {f : α → β} {b : β}
    (h : x.toOption.map f = some b) : ∃ a, x = .ok a ∧ f a = b := by
  cases x with
  | error => cases h
  | ok a => exact ⟨a, rfl, Option.some.inj h⟩

/-- Whoever is let through has the tier the gate asks for on their row. -/
theorem World.perform_tier (h : w.perform a = .ok (true, w'))
    (hdemand : w.demand a = some (user, tier, now)) :
    ∃ row, w.platform.compliance.lockUser user = .ok row ∧ tier ≤ row.kycTier := by
  have hview {until' : Option Instant} {limits : WithdrawLimits}
      (hsome : ∃ view, w.userMoneyView user until' = .ok view ∧
        limits.withdrawKycTier ≤ view.kycTier) (htier : limits.withdrawKycTier = tier) :
      ∃ row, w.platform.compliance.lockUser user = .ok row ∧ tier ≤ row.kycTier := by
    obtain ⟨view, hview, hle⟩ := hsome
    obtain ⟨row, hrow, heq⟩ := userMoneyView_tier hview
    exact ⟨row, hrow, by rw [← htier, heq]; exact hle⟩
  cases a with
  | deliver | apply | elsewhere => cases hdemand
  | operate op =>
    simp only [perform, ok_iff] at h
    obtain ⟨⟨booked, platform⟩, hop, hbooked, rfl⟩ := h
    subst hbooked
    cases op with
    | trade =>
      obtain ⟨required, hrequired, heq⟩ := Option.map_eq_some_iff.1 hdemand
      cases heq
      simp only [Compliance.World.perform, Bool.not_eq_true', ok_iff] at hop
      obtain ⟨⟨_, _⟩, htrade, hnew, -⟩ := hop
      exact enforceMoneyMutation_tier (placeTrade_gate htrade hnew) (.inl rfl) hrequired
    | admitObserved =>
      simp only [demand, Option.bind_eq_bind, Option.bind_eq_some_iff, Option.pure_def,
        Option.some.injEq, Prod.mk.injEq] at hdemand
      obtain ⟨row, hrow, _, hrowUser, required, hrequired, rfl, rfl, rfl⟩ := hdemand
      simp only [Compliance.World.perform, Bool.and_eq_true, Bool.not_eq_true', ok_iff] at hop
      obtain ⟨⟨_, _⟩, hadmit, ⟨hnew, hadmitted⟩, rfl⟩ := hop
      have hgate := admitObserved_gate (Compliance.World.onDeposits_spec hadmit).1 hnew hadmitted
      obtain ⟨id, _, amount, _, _, _, _, _, _, _, _, _, _⟩ := row
      subst hrowUser
      rw [Compliance.World.admitFacts, hrow] at hgate
      exact enforceMoneyMutation_tier hgate (.inr rfl) hrequired
    | vote | admitByHand | grant | referral | referralOnPaid => cases hdemand
  | request =>
    obtain ⟨limits, hlimits, heq⟩ := toOption_map_eq_some hdemand
    cases heq
    simp only [perform, Bool.and_eq_true, Bool.not_eq_true', ok_iff] at h
    obtain ⟨⟨receipt, _⟩, hrequest, ⟨hnew, haccepted⟩, -⟩ := h
    obtain ⟨⟨_, hrequest⟩, -⟩ := onMoney_spec hrequest
    exact hview (requestWithdraw_tier hrequest hnew haccepted hlimits) rfl
  | decide =>
    obtain ⟨limits, hlimits, heq⟩ := toOption_map_eq_some hdemand
    cases heq
    simp only [perform, decide_eq_true_eq, ok_iff] at h
    obtain ⟨⟨row, _⟩, hdecide, happroved, -⟩ := h
    obtain ⟨⟨_, hdecide⟩, -⟩ := onMoney_spec hdecide
    exact hview (decideWithdraw_tier hdecide happroved hlimits) rfl
  | send =>
    obtain ⟨limits, hlimits, heq⟩ := toOption_map_eq_some hdemand
    cases heq
    simp only [perform, ok_iff] at h
    obtain ⟨⟨sent, _⟩, hsend, hclaims, -⟩ := h
    obtain ⟨⟨_, hsend⟩, -⟩ := onMoney_spec hsend
    exact hview (sendWithdraw_tier hsend hclaims hlimits) rfl

end Perform

/-! ### The tier on the row is the last event's -/

/-- The row of a user with accepted events has the tier of the last one. -/
def Stored (w : World) : Prop :=
  ∀ row ∈ w.users, ∀ e, latestKyc w.kycEvents row.user = some e → row.kycTier = e.toTier

theorem latestKyc_concat (events : List KycEvent) (event : KycEvent) (user : UserId) :
    latestKyc (events ++ [event]) user =
      if event.user = user then some event else latestKyc events user := by
  unfold latestKyc
  rw [List.filter_append]
  by_cases h : event.user = user
  · simp [h]
  · simp [h]

section Stored

theorem Stored.same (h : Stored w) (husers : w'.users = w.users)
    (hevents : w'.kycEvents = w.kycEvents) : Stored w' := by
  intro row hrow e he
  rw [husers] at hrow
  rw [hevents] at he
  exact h row hrow e he

theorem Stored.applyKyc (h : Stored w) {a : Assertion} {freshId : Uuid}
    (hstep : w.applyKyc user a now freshId = .ok w') : Stored w' := by
  simp only [World.applyKyc, ok_iff] at hstep
  obtain ⟨_, -, rfl⟩ := hstep
  intro row hrow e he
  simp only [World.persistKycEvent, World.setKycTier, World.users] at hrow he
  obtain ⟨row₀, hrow₀, rfl⟩ := mem_update.1 hrow
  have huser : (if row₀.user = user then withTier a.toTier row₀ else row₀).user = row₀.user := by
    split_ifs <;> rfl
  rw [huser, latestKyc_concat] at he
  by_cases hsame : user = row₀.user
  · rw [if_pos hsame] at he
    rw [if_pos hsame.symm, ← Option.some.inj he]
    rfl
  · rw [if_neg hsame] at he
    rw [if_neg fun heq => hsame heq.symm]
    exact h row₀ hrow₀ e he

theorem step_stored (h : Stored w) (hstep : w.step a = .ok w') : Stored w' := by
  obtain ⟨moves, hperform⟩ := map_snd_eq_ok.1 hstep
  cases a with
  | deliver record =>
    simp only [World.perform, World.acceptAndApplyInboxedKyc, ok_iff] at hperform
    obtain ⟨⟨_, _⟩, ⟨user, -, haccept⟩, -, rfl⟩ := hperform
    split at haccept
    · rw [pure_eq_ok, Prod.mk.injEq] at haccept
      exact haccept.2 ▸ h
    · cases haccept
    · simp only [ok_iff] at haccept
      obtain ⟨_, happly, -, rfl⟩ := haccept
      have hkept : Stored { w with inbox := w.inbox ++ [record] } := h.same rfl rfl
      exact hkept.applyKyc happly
  | apply =>
    simp only [World.perform, ok_iff] at hperform
    obtain ⟨_, happly, -, rfl⟩ := hperform
    exact h.applyKyc happly
  | operate =>
    simp only [World.perform, ok_iff] at hperform
    obtain ⟨⟨_, _⟩, hop, -, rfl⟩ := hperform
    have hkept := Compliance.World.perform_compliance hop
    exact h.same (congrArg ComplianceDb.users hkept) rfl
  | request =>
    simp only [World.perform, ok_iff] at hperform
    obtain ⟨⟨_, _⟩, hrequest, -, rfl⟩ := hperform
    obtain ⟨-, husers, hevents⟩ := World.onMoney_spec hrequest
    exact h.same husers hevents
  | decide =>
    simp only [World.perform, ok_iff] at hperform
    obtain ⟨⟨_, _⟩, hdecide, -, rfl⟩ := hperform
    obtain ⟨-, husers, hevents⟩ := World.onMoney_spec hdecide
    exact h.same husers hevents
  | send =>
    simp only [World.perform, ok_iff] at hperform
    obtain ⟨⟨_, _⟩, hsend, -, rfl⟩ := hperform
    obtain ⟨-, husers, hevents⟩ := World.onMoney_spec hsend
    exact h.same husers hevents
  | elsewhere =>
    simp only [World.perform, Except.ok.injEq, Prod.mk.injEq] at hperform
    obtain ⟨-, rfl⟩ := hperform
    intro row hrow e he
    simp only [World.keeping, World.users] at hrow he
    obtain ⟨row₀, hrow₀, rfl⟩ := List.mem_map.1 hrow
    exact h row₀ hrow₀ e he

end Stored

/-! ### Lapsed identities -/

/-- If the last accepted event of the user has lapsed by then, its tier is below the one
the gate asks for. -/
def lapsedBelow (w : World) (a : Action) : Bool :=
  match w.demand a with
  | none => true
  | some (user, tier, now) =>
    match latestKyc w.kycEvents user with
    | none => true
    | some e => e.lapsed now = false ∨ tier ≤ kycTierNone ∨ e.toTier < tier

/-- In every run whose actions all meet the condition, nothing is let through that needs
a tier while the last accepted event of its user has lapsed. -/
theorem lapsed_identity_refused (start : World) (hstart : start.kycEvents = [])
    (actions : List Action)
    (hlapsed : Along World.step (fun w a => lapsedBelow w a = true) start actions)
    (before later : List Action) (a : Action) (hsplit : actions = before ++ a :: later)
    (w' : World) (hpassed : (run World.step start before).perform a = .ok (true, w'))
    (user : UserId) (tier : Int) (now : Instant)
    (hdemand : (run World.step start before).demand a = some (user, tier, now))
    (hneeded : kycTierNone < tier) (e : KycEvent)
    (hlatest : latestKyc (run World.step start before).kycEvents user = some e) :
    e.lapsed now = false := by
  have hstored : Stored (run World.step start before) := by
    refine run_preserves (fun _ _ _ _ h hstep => step_stored h hstep) ?_
    intro row _ e he
    rw [hstart] at he
    cases he
  obtain ⟨row, hrow, htier⟩ := World.perform_tier hpassed hdemand
  have hfound := okOr_eq_ok.1 hrow
  have hsame := hstored row (mem_of_find hfound) e (by rw [key_of_find hfound]; exact hlatest)
  subst hsplit
  have hhere := hlapsed.here
  simp only [lapsedBelow, hdemand, hlatest, decide_eq_true_eq] at hhere
  rcases hhere with hvalid | hnone | hbelow
  · exact hvalid
  · omega
  · omega

/-! ### A trade after the horizon -/

/-- The platform of a funded user before a live market, with nothing withdrawn. -/
def sampleIdentity : World :=
  { platform := sampleWorld, money := MoneyDb.empty, kycEvents := [], inbox := [] }

/-- Full identity, accepted at 0 and valid until 5. -/
def sampleDelivery : Action :=
  .deliver ⟨"provider", "event-1", "hash", some sampleUser⟩
    ⟨kycTierFull, some "ref", some 5, "v1"⟩ 0 1

def sampleIdentified : World := attempt World.step sampleIdentity sampleDelivery

theorem valid_identity_trades :
    ((sampleIdentified.perform (.operate (sampleBuy 3))).toOption.map Prod.fst = some true) ∧
    ∀ e, latestKyc sampleIdentified.kycEvents sampleUser = some e → e.lapsed 3 = false := by
  have hbooked :
      (sampleIdentified.perform (.operate (sampleBuy 3))).toOption.map Prod.fst = some true := by
    decide +kernel
  refine ⟨hbooked, fun e he => ?_⟩
  cases h : sampleIdentified.perform (.operate (sampleBuy 3)) with
  | error => rw [h] at hbooked; cases hbooked
  | ok r =>
    rw [h] at hbooked
    obtain ⟨booked, w'⟩ := r
    obtain rfl : booked = true := Option.some.inj hbooked
    exact lapsed_identity_refused sampleIdentity rfl [sampleDelivery, .operate (sampleBuy 3)]
      (by decide +kernel) [sampleDelivery] [] _ rfl w' h sampleUser 1 3 rfl (by decide) e he

/-- At 10 the event is indeterminate, and the trade that needs tier 1 is booked. -/
theorem lapsed_identity_trades :
    (sampleIdentified.perform (.operate (sampleBuy 10))).toOption.map Prod.fst = some true ∧
    sampleIdentified.demand (.operate (sampleBuy 10)) = some (sampleUser, 1, 10) ∧
    (latestKyc sampleIdentified.kycEvents sampleUser).map (fun e => (e.lapsed 10, kycVerdict e 10)) =
      some (true, .indeterminate) := by
  decide +kernel

end Opinions.Compliance.Identity
