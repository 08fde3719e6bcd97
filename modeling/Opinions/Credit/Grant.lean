import Opinions.Credit.Convert

/-! Granting bonus credit (`GrantCredit` in `application/src/money/credits.rs`, the referral
grants in `application/src/money/referrals.rs`). A real-money grant is admitted only if the
bonus reserve covers every open promise and the new one. The reserve's row is locked from
the moment its balance is read. -/

namespace Opinions.Credit

open Lib.Checked Lib.Result Model Store Trade Money

/-- A posting would take the bonus reserve below zero. -/
def reserveShort : AppError := .store (.ledger (.insufficientFunds (cash .bonusReserve)))

/-- What a check outside these tables may answer; none of them looks at the reserve. -/
abbrev OtherError := { e : AppError // e ≠ reserveShort }

abbrev Gate := Except OtherError Unit

def missingConfig : AppError := .store (.invariant "required money config missing or malformed")

/-- The new promise fits the reserve; a sweeps grant promises no cash. -/
def coverPromise (reserve : Int) (grantClass : GrantClass) (amount : Int) (db : CreditDb) :
    Except AppError Unit :=
  if grantClass = .realMoney then do
    let promised ← (MoneyDb.bigint (remainingRealMoneyPromise db.lots)).mapError .store
    let next ← okOr (tryI64 (promised + amount)) .overflow
    refuse (reserve < next) (.insufficientBonusReserve reserve next)
  else pure ()

def admitGrant (mintCap : Int) (grantedAt : Instant) (grantClass : GrantClass) (amount : Int)
    (db : CreditDb) : Except AppError Unit := do
  let reserve := db.ledger.balanceOf (cash .bonusReserve)
  let minted ← (db.bonusMintedSince (grantedAt - hours 24)).mapError .store
  let nextMinted ← okOr (tryI64 (minted + amount)) .overflow
  refuse (mintCap = 0 ∨ mintCap < nextMinted) (.moneyForbidden "bonus mint cap")
  coverPromise reserve grantClass amount db

/-- The reserve account, created when it is first looked at. -/
def openReserve (db : CreditDb) : CreditDb :=
  { db with ledger := db.ledger.account (cash .bonusReserve) }

def addLot (key : String) (lot : CreditLotRow) (db : CreditDb) : Except AppError CreditDb := do
  let inserted ← (db.insertCreditLot lot).mapError .store
  (inserted.rememberLotIdempotency key lot.id).mapError .store

structure GrantCreditCmd where
  user : UserId
  amount : Int
  source : String
  grantClass : GrantClass
  policyVersion : String
  idempotencyKey : String
  grantedAt : Instant

structure GrantReceipt where
  lotId : Uuid
  ledgerTxn : String
  replayed : Bool

structure GrantFacts where
  receivables : List Int
  gate : Gate
  mintCap : Option Int
  freshLot : Uuid

def GrantCreditCmd.lot (cmd : GrantCreditCmd) (freshLot : Uuid) : CreditLotRow :=
  { id := freshLot, user := cmd.user, source := cmd.source, amountMicro := cmd.amount
    grantedAt := cmd.grantedAt, grantClass := cmd.grantClass, policyVersion := cmd.policyVersion
    convertedAt := none }

/-- The grant was made before: its lot must be the one asked for. -/
def replayGrant (cmd : GrantCreditCmd) (db : CreditDb) : Except AppError (GrantReceipt × CreditDb) :=
  do
  let lot ← okOr (db.lotByIdempotency cmd.idempotencyKey)
    (.store (.invariant "credit grant transaction has no grant lot"))
  refuse (lot.user ≠ cmd.user ∨ lot.amountMicro ≠ cmd.amount ∨ lot.source ≠ cmd.source ∨
    lot.grantClass ≠ cmd.grantClass ∨ lot.policyVersion ≠ cmd.policyVersion ∨
    lot.grantedAt ≠ cmd.grantedAt) .idempotencyConflict
  pure (⟨lot.id, cmd.idempotencyKey, true⟩, db)

/-- `GrantCredit::execute_as`. -/
def grantCredit (facts : GrantFacts) (cmd : GrantCreditCmd) (db : CreditDb) :
    Except AppError (GrantReceipt × CreditDb) :=
  match db.ledger.txnByKey cmd.idempotencyKey with
  | some _ => replayGrant cmd db
  | none => do
    let converted ← db.convertThenCollect cmd.user cmd.grantedAt
      ("credit-grant-lock:" ++ cmd.idempotencyKey) facts.receivables
    facts.gate.mapError Subtype.val
    let opened := openReserve converted
    let mintCap ← okOr facts.mintCap missingConfig
    admitGrant mintCap cmd.grantedAt cmd.grantClass cmd.amount opened
    let ledger ← (((opened.ledger.account (credit .house)).account
      (credit (.user cmd.user))).ledgerApply .creditGrant cmd.idempotencyKey
      [⟨credit .house, -cmd.amount⟩, ⟨credit (.user cmd.user), cmd.amount⟩]).mapError .store
    let stored ← addLot cmd.idempotencyKey (cmd.lot facts.freshLot) { opened with ledger := ledger }
    pure (⟨facts.freshLot, cmd.idempotencyKey, false⟩, stored)

structure ReferralPolicy where
  minimumNotionalMicro : Int
  referrerAmountMicro : Int
  refereeAmountMicro : Int
  grantClass : GrantClass
  mintCapMicro : Int

/-- What a referral grant reads beside the lots: the bind and its parties (read again once
the users are locked), the switches, the policy and the referee's first paid market. -/
structure ReferralFacts where
  bind : Option Uuid
  parties : Option (UserId × UserId)
  lockedParties : Option (UserId × UserId)
  featureReferrals : Bool
  phoneVerified : Bool
  policy : Except String ReferralPolicy
  receivables : UserId → List Int
  gate : UserId → Gate
  paid : Option (MarketId × Int)
  freshReferrer : Uuid
  freshReferee : Uuid

structure GrantReferralCmd where
  referee : UserId
  paidMarket : MarketId
  grantedAt : Instant

def referralPairMatches (pair expected : UserId × UserId) : Bool :=
  pair = expected ∧ pair.1 ≠ pair.2

def requireBindParties (parties : Option (UserId × UserId)) : Except AppError (UserId × UserId) :=
  okOr parties (.store (.invariant "referral bind index points to no row"))

/-- The two users in the order they are locked in. -/
def lockOrder (pair : UserId × UserId) : List UserId :=
  if pair.1.uuid.toNat ≤ pair.2.uuid.toNat then [pair.1, pair.2] else [pair.2, pair.1]

def referralKey (bind : Uuid) : String := "referral-grant:" ++ uuidText bind

def validatedReferralLots (pair : UserId × UserId) (bind : Uuid) (db : CreditDb) :
    Except AppError (CreditLotRow × CreditLotRow) := do
  let referrerLot ← okOr (db.lotByIdempotency (referralKey bind ++ ":referrer"))
    (.store (.invariant "referral grant transaction has no referrer lot"))
  let refereeLot ← okOr (db.lotByIdempotency (referralKey bind ++ ":referee"))
    (.store (.invariant "referral grant transaction has no referee lot"))
  refuse (referrerLot.user ≠ pair.1 ∨ refereeLot.user ≠ pair.2)
    (.store (.invariant "referral grant lots name the wrong users"))
  pure (referrerLot, refereeLot)

def referralLockKey (bind : Uuid) (user : UserId) : String :=
  "referral-grant-lock:" ++ uuidText bind ++ ":" ++ uuidText user.uuid

/-- Which leg of a referral grant a lot is. -/
inductive Leg
  | referrer
  | referee

def Leg.label : Leg → String
  | .referrer => "referrer"
  | .referee => "referee"

def referralLot (leg : Leg) (user : UserId) (amount : Int) (fresh bind : Uuid) (market : MarketId)
    (grantedAt : Instant) (grantClass : GrantClass) : CreditLotRow :=
  { id := fresh, user := user, source := "referral:" ++ uuidText bind ++ ":" ++ leg.label
    amountMicro := amount, grantedAt := grantedAt, grantClass := grantClass
    policyVersion := "referral-paid:" ++ uuidText market.uuid, convertedAt := none }

def mintPair (facts : ReferralFacts) (policy : ReferralPolicy) (bind : Uuid)
    (pair : UserId × UserId) (cmd : GrantReferralCmd) (db : CreditDb) :
    Except AppError CreditDb := do
  let opened := ((db.ledger.account (credit .house)).account (credit (.user pair.1))).account
    (credit (.user pair.2))
  let ledger ← (opened.ledgerApply .creditGrant (referralKey bind)
    [⟨credit .house, -(policy.referrerAmountMicro + policy.refereeAmountMicro)⟩,
      ⟨credit (.user pair.1), policy.referrerAmountMicro⟩,
      ⟨credit (.user pair.2), policy.refereeAmountMicro⟩]).mapError .store
  let first ← addLot (referralKey bind ++ ":referrer")
    (referralLot .referrer pair.1 policy.referrerAmountMicro facts.freshReferrer bind cmd.paidMarket
      cmd.grantedAt policy.grantClass) { db with ledger := ledger }
  addLot (referralKey bind ++ ":referee")
    (referralLot .referee pair.2 policy.refereeAmountMicro facts.freshReferee bind cmd.paidMarket
      cmd.grantedAt policy.grantClass) first

/-- The referee's first paid market is this one and large enough, and both legs are. -/
def qualifies (facts : ReferralFacts) (policy : ReferralPolicy) (cmd : GrantReferralCmd) : Bool :=
  match facts.paid with
  | none => false
  | some (market, notional) =>
    market = cmd.paidMarket ∧ policy.minimumNotionalMicro ≤ notional ∧
      0 < policy.referrerAmountMicro ∧ 0 < policy.refereeAmountMicro

/-- `GrantReferral::execute`; whether the grant was made. -/
def grantReferral (facts : ReferralFacts) (cmd : GrantReferralCmd) (db : CreditDb) :
    Except AppError (Bool × CreditDb) := do
  let bind ← okOr facts.bind .referralIneligible
  let pair ← requireBindParties facts.parties
  refuse (referralPairMatches pair (pair.1, cmd.referee) = false) .referralIneligible
  match db.ledger.txnByKey (referralKey bind) with
  | some _ => do
    let _ ← validatedReferralLots pair bind db
    pure (false, db)
  | none => do
    let locked ← requireBindParties facts.lockedParties
    refuse (referralPairMatches locked pair = false) .referralIneligible
    refuse (facts.featureReferrals = false ∨ facts.phoneVerified = false) .referralIneligible
    let policy ← facts.policy.mapError fun why => AppError.store (.invariant why)
    let converted ← (lockOrder pair).foldlM (fun db user =>
      db.convertThenCollect user cmd.grantedAt (referralLockKey bind user)
        (facts.receivables user)) db
    (lockOrder pair).forM fun user => (facts.gate user).mapError Subtype.val
    refuse (qualifies facts policy cmd = false) .referralIneligible
    let total ← okOr (tryI64 (policy.referrerAmountMicro + policy.refereeAmountMicro)) .overflow
    let opened := openReserve converted
    admitGrant policy.mintCapMicro cmd.grantedAt policy.grantClass total opened
    let minted ← mintPair facts policy bind pair cmd opened
    pure (true, minted)

/-- Any failure that is not the store's is reported as a broken invariant. -/
def referralOperationError : AppError → AppError
  | .store e => .store e
  | _ => .store (.invariant "referral grant money operation failed")

/-- Check and convert the users in turn; a refused check stops the grant, not the
resolution around it. -/
def gateAndConvert (facts : ReferralFacts) (bind : Uuid) (grantedAt : Instant) :
    List UserId → CreditDb → Except AppError (Bool × CreditDb)
  | [], db => .ok (true, db)
  | user :: users, db =>
    match facts.gate user with
    | .error ⟨.store e, _⟩ => .error (.store e)
    | .error _ => .ok (false, db)
    | .ok () => do
      let converted ← (db.convertThenCollect user grantedAt (referralLockKey bind user)
        (facts.receivables user)).mapError referralOperationError
      gateAndConvert facts bind grantedAt users converted

/-- The caps as the resolution asks for them: over the cap or the reserve is no grant. -/
def admitsPair (policy : ReferralPolicy) (grantedAt : Instant) (total : Int) (db : CreditDb) :
    Except AppError Bool := do
  let reserve := db.ledger.balanceOf (cash .bonusReserve)
  let minted ← (db.bonusMintedSince (grantedAt - hours 24)).mapError .store
  let nextMinted ← okOr (tryI64 (minted + total))
    (.store (.invariant "referral mint total overflow"))
  if policy.mintCapMicro = 0 ∨ policy.mintCapMicro < nextMinted then pure false
  else if policy.grantClass = .realMoney then do
    let promised ← (MoneyDb.bigint (remainingRealMoneyPromise db.lots)).mapError .store
    let next ← okOr (tryI64 (promised + total))
      (.store (.invariant "referral promise total overflow"))
    pure (next ≤ reserve)
  else pure true

def mintIfAdmitted (facts : ReferralFacts) (policy : ReferralPolicy) (bind : Uuid)
    (pair : UserId × UserId) (cmd : GrantReferralCmd) (db : CreditDb) :
    Except AppError (Bool × CreditDb) :=
  if qualifies facts policy cmd = false then .ok (false, db)
  else do
    let total ← okOr (tryI64 (policy.referrerAmountMicro + policy.refereeAmountMicro))
      (.store (.invariant "referral grant total overflow"))
    let opened := openReserve db
    let admitted ← admitsPair policy cmd.grantedAt total opened
    if admitted then do
      let minted ← mintPair facts policy bind pair cmd opened
      pure (true, minted)
    else pure (false, opened)

/-- `grant_referral_on_paid_in_tx`: the same grant inside the transaction that pays a market. -/
def grantReferralOnPaid (facts : ReferralFacts) (cmd : GrantReferralCmd) (db : CreditDb) :
    Except AppError (Bool × CreditDb) :=
  match facts.bind with
  | none => .ok (false, db)
  | some bind => do
    let pair ← requireBindParties facts.parties
    if referralPairMatches pair (pair.1, cmd.referee) = false then pure (false, db)
    else
      match db.ledger.txnByKey (referralKey bind) with
      | some _ => do
        let _ ← validatedReferralLots pair bind db
        pure (false, db)
      | none =>
        if facts.featureReferrals = false ∨ facts.phoneVerified = false then pure (false, db)
        else do
          let policy ← facts.policy.mapError fun why => AppError.store (.invariant why)
          let (passed, converted) ← gateAndConvert facts bind cmd.grantedAt (lockOrder pair) db
          if passed then mintIfAdmitted facts policy bind pair cmd converted
          else pure (false, converted)

end Opinions.Credit
