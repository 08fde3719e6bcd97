import Opinions.Compliance.Tables
import Opinions.Credit.Covered

/-! The gate of a money operation (`application/src/money/enforcement.rs` over the reads of
`adapters/src/pg/credit_tx.rs`): a snapshot of the user's standing, then the policy as a
function of the snapshot. The screenings, the deposit limit and the config are inputs. -/

namespace Opinions.Compliance

open Lib.Result Lib.Outcome Model Store Trade Money Credit

inductive MoneyMutation
  | placeTrade
  | castVote
  | depositAdmit
  | creditGrant
  deriving DecidableEq

structure MoneyGateSnapshot where
  status : UserStatus
  selfExcluded : Bool
  kycTier : Int
  requiredKycTier : Int
  geoClear : Bool
  sanctionsClear : Bool
  depositLimitMicro : Option Int
  depositsPaused : Bool
  shadowTradeCapMicro : Int
  shadowDepositCapMicro : Int

/-- What the gate reads outside the compliance tables. A config value may be missing, and
the pause switch may also be malformed. -/
structure GateReads where
  requiredKycTier : Option Int
  geo : Option ScreenVerdict
  sanctions : Option ScreenVerdict
  depositLimitMicro : Option Int
  pauseDeposits : Option (Option Bool)
  shadowTradeCapMicro : Option Int
  shadowDepositCapMicro : Option Int

def allowsProgress (now : Instant) : ScreenVerdict → Bool
  | .clear _ expiresAt _ => now < expiresAt
  | _ => false

/-- The last screening, if there is one, still lets the user progress. -/
def freshClear (verdict : Option ScreenVerdict) (now : Instant) : Bool :=
  verdict.any (allowsProgress now)

/-- Some exclusion is not lifted, and the one that started last ends after `now`. -/
def ComplianceDb.selfExcluded (db : ComplianceDb) (user : UserId) (now : Instant) : Bool :=
  (db.activeSelfExclusion user).any fun e => now < e.coolingOffUntil

def requiredConfigFlag (value : Option (Option Bool)) : Except StoreError Bool := do
  let seeded ← okOr value (.invariant "required money config missing")
  okOr seeded (.invariant "required money config malformed")

def requiredConfig (value : Option Int) : Except StoreError Int :=
  okOr value (.invariant "required money config missing or malformed")

def snapshotOf (reads : GateReads) (row : UserComplianceRow) (selfExcluded : Bool)
    (now : Instant) : Except StoreError MoneyGateSnapshot := do
  let requiredKycTier ← requiredConfig reads.requiredKycTier
  let depositsPaused ← requiredConfigFlag reads.pauseDeposits
  let shadowTradeCap ← requiredConfig reads.shadowTradeCapMicro
  let shadowDepositCap ← requiredConfig reads.shadowDepositCapMicro
  pure { status := row.status, selfExcluded := selfExcluded, kycTier := row.kycTier
         requiredKycTier := requiredKycTier, geoClear := freshClear reads.geo now
         sanctionsClear := freshClear reads.sanctions now
         depositLimitMicro := reads.depositLimitMicro, depositsPaused := depositsPaused
         shadowTradeCapMicro := shadowTradeCap, shadowDepositCapMicro := shadowDepositCap }

def readGateSnapshot (reads : GateReads) (db : ComplianceDb) (user : UserId) (now : Instant) :
    Except StoreError MoneyGateSnapshot := do
  let row ← db.lockUser user
  snapshotOf reads row (db.selfExcluded user now) now

/-- A shadow refusal reads as a breach of the published tier-0 cap. -/
def shadowRefusal (capMicro : Int) : AppError := .positionCapExceeded capMicro 0

def decideDeposit (snap : MoneyGateSnapshot) (amountMicro : Int) : Except AppError Unit := do
  refuse (snap.depositsPaused = true) .depositsPaused
  refuse (snap.kycTier < snap.requiredKycTier) (.complianceHold "kyc")
  refuse (snap.geoClear = false) (.complianceHold "geo")
  refuse (snap.sanctionsClear = false) (.complianceHold "sanctions")
  refuse (∃ limit ∈ snap.depositLimitMicro, limit < amountMicro) (.complianceHold "deposit_limit")
  refuse (snap.status = .shadowLimited ∧ snap.shadowDepositCapMicro < amountMicro)
    (shadowRefusal snap.shadowDepositCapMicro)

def decideTrade (snap : MoneyGateSnapshot) (amountMicro : Int) : Except AppError Unit := do
  refuse (snap.kycTier < snap.requiredKycTier) (.moneyForbidden "kyc")
  refuse (snap.geoClear = false) (.moneyForbidden "geo")
  refuse (snap.sanctionsClear = false) (.moneyForbidden "sanctions")
  refuse (snap.status = .shadowLimited ∧ snap.shadowTradeCapMicro < amountMicro)
    (shadowRefusal snap.shadowTradeCapMicro)

/-- The policy: bans and self-exclusions first, then what the kind of operation asks for. -/
def decideMoneyMutation (snap : MoneyGateSnapshot) (kind : MoneyMutation) (amountMicro : Int) :
    Except AppError Unit := do
  refuse (snap.status = .banned ∧ kind ≠ .depositAdmit) (.moneyForbidden "user banned")
  refuse (snap.selfExcluded = true) (.moneyForbidden "self-excluded")
  match kind with
  | .depositAdmit => decideDeposit snap amountMicro
  | .placeTrade => decideTrade snap amountMicro
  | .castVote => refuse (snap.geoClear = false) (.moneyForbidden "geo")
  | .creditGrant => refuse (snap.status ≠ .active) (.moneyForbidden "status")

def enforceMoneyMutation (reads : GateReads) (db : ComplianceDb) (user : UserId)
    (kind : MoneyMutation) (amountMicro : Int) (now : Instant) : Except AppError Unit := do
  let snap ← (readGateSnapshot reads db user now).mapError .store
  decideMoneyMutation snap kind amountMicro

variable {amountMicro : Int} {db : ComplianceDb} {now : Instant} {reads : GateReads} {user : UserId}

section Passed

variable {kind : MoneyMutation}

/-- Whoever passes is not self-excluded at that instant, and not banned unless a deposit
is admitted. -/
theorem enforceMoneyMutation_spec
    (h : enforceMoneyMutation reads db user kind amountMicro now = .ok ()) :
    db.selfExcluded user now = false ∧
      ∃ status, db.statusOf user = some status ∧ (status = .banned → kind = .depositAdmit) := by
  simp only [enforceMoneyMutation, readGateSnapshot, snapshotOf, decideMoneyMutation,
    ComplianceDb.lockUser, ok_iff] at h
  obtain ⟨_, ⟨row, hrow, _, -, _, -, _, -, _, -, rfl⟩, _, hbanned, _, hexcluded, -⟩ := h
  refine ⟨Bool.not_eq_true _ ▸ hexcluded, row.status, ?_, fun hstatus => ?_⟩
  · rw [ComplianceDb.statusOf, hrow, Option.map_some]
  · by_contra hkind
    exact hbanned ⟨hstatus, hkind⟩

/-- No exclusion that is still unlifted has time left when the gate lets the user pass. -/
theorem elapsed_of_not_selfExcluded (h : db.selfExcluded user now = false)
    {e : SelfExclusion} (he : db.activeSelfExclusion user = some e) :
    e.coolingOffUntil ≤ now := by
  rw [ComplianceDb.selfExcluded, he, Option.any_some, decide_eq_false_iff_not] at h
  exact not_lt.1 h

end Passed

theorem decide_notShort (snap : MoneyGateSnapshot) (kind : MoneyMutation) (amountMicro : Int) :
    Ends (fun _ => True) NotShort (decideMoneyMutation snap kind amountMicro) := by
  refine (ends_refuse).bind fun _ _ => (ends_refuse).bind fun _ _ => ?_
  cases kind with
  | placeTrade =>
    refine (ends_refuse).bind fun _ _ => (ends_refuse).bind fun _ _ => ?_
    refine (ends_refuse).bind fun _ _ => (ends_refuse).mono fun _ _ => trivial
  | castVote | creditGrant => exact (ends_refuse).mono fun _ _ => trivial
  | depositAdmit =>
    refine (ends_refuse).bind fun _ _ => (ends_refuse).bind fun _ _ => ?_
    refine (ends_refuse).bind fun _ _ => (ends_refuse).bind fun _ _ => ?_
    refine (ends_refuse).bind fun _ _ => (ends_refuse).mono fun _ _ => trivial

theorem readGateSnapshot_notShort (reads : GateReads) (db : ComplianceDb) (user : UserId)
    (now : Instant) :
    Ends (fun _ => True) (fun e => NotShort (.store e)) (readGateSnapshot reads db user now) := by
  refine (ends_okOr).bind fun _ _ => (ends_okOr).bind fun _ _ => ?_
  refine Ends.bind (P := fun _ => True) ?_ fun _ _ => ?_
  · exact (ends_okOr).bind fun _ _ => (ends_okOr).mono fun _ _ => trivial
  · exact (ends_okOr).bind fun _ _ => (ends_okOr).bind fun _ _ => trivial

theorem enforceMoneyMutation_notShort (reads : GateReads) (db : ComplianceDb) (user : UserId)
    (kind : MoneyMutation) (amountMicro : Int) (now : Instant) :
    Ends (fun _ => True) NotShort
      (enforceMoneyMutation reads db user kind amountMicro now) :=
  (ends_mapError (readGateSnapshot_notShort reads db user now)).bind fun snap _ =>
    decide_notShort snap kind amountMicro

/-- The gate as the grants take it: none of its refusals is about the reserve. -/
def grantGate (reads : GateReads) (db : ComplianceDb) (user : UserId) (amountMicro : Int)
    (now : Instant) : Gate :=
  match h : enforceMoneyMutation reads db user .creditGrant amountMicro now with
  | .ok () => .ok ()
  | .error e => .error ⟨e, (enforceMoneyMutation_notShort reads db user .creditGrant amountMicro
      now).of_error h⟩

theorem grantGate_eq_ok (h : grantGate reads db user amountMicro now = .ok ()) :
    enforceMoneyMutation reads db user .creditGrant amountMicro now = .ok () := by
  unfold grantGate at h
  split at h
  · assumption
  · cases h

end Opinions.Compliance
