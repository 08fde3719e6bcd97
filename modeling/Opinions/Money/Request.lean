import Opinions.Money.Effect

/-! Requesting a withdrawal (`application/src/money/withdraw_request.rs`). A request
is replayed from its stored intent, refused with a stored intent, or accepted: then
its amount moves from the user to the withheld account and a `W1` row is
inserted. -/

namespace Opinions.Money

open Lib.Result Lib.Rows Model Store Trade

def base58Alphabet : List Char :=
  "123456789ABCDEFGHJKLMNPQRSTUVWXYZabcdefghijkmnopqrstuvwxyz".toList

/-- The bytes of a number, most significant first and without leading zeros. -/
def bytesOf : Nat → Nat → List Nat
  | 0, _ => []
  | fuel + 1, n => if n = 0 then [] else bytesOf fuel (n / 256) ++ [n % 256]

/-- Each leading `1` is a zero byte; a text of `n` digits has at most `n` bytes. -/
def decodeBase58 (input : List Char) : Option (List Nat) :=
  if input = [] then none
  else do
    let values ← input.mapM fun c => base58Alphabet.findIdx? (· == c)
    let zeros := (input.takeWhile (· == '1')).length
    some (List.replicate zeros 0 ++
      bytesOf input.length (values.foldl (fun n v => n * 58 + v) 0))

def trim (s : List Char) : List Char :=
  ((s.dropWhile isWhitespace).reverse.dropWhile isWhitespace).reverse

/-- A destination is the base58 text of exactly 32 bytes. -/
def canonicalizeDest (raw : String) : Option String := do
  let trimmed := trim raw.toList
  let bytes ← decodeBase58 trimmed
  if bytes.length = 32 then some (String.ofList trimmed) else none

structure RequestWithdrawCmd where
  user : UserId
  amountMicro : Int
  dest : String
  hasClientIp : Bool
  idempotencyKey : Option String

/-- What a request meets beside the facts of every withdrawal transaction. -/
structure RequestFacts where
  money : MoneyFacts
  geo : Except StoreError ScreenVerdict
  sanctions : Except StoreError ScreenVerdict
  lots : List LotFact
  amlCandidate : Except StoreError Unit
  freshId : WithdrawalId

def idempotencySlot (user : UserId) (clientKey : String) : String :=
  "withdraw-idem:" ++ String.ofList user.uuid.text ++ ":" ++ clientKey

def refusal (cmd : RequestWithdrawCmd) (dest code message : String) : WithdrawalReceipt :=
  { id := none, user := cmd.user, dest := dest, amountMicro := cmd.amountMicro, combo := none
    holdTx := none, replayed := false, refused := true, refuseCode := some code
    refuseMessage := some message }

def persistIntent (fingerprint : String) (receipt : WithdrawalReceipt) (db : MoneyDb) :
    Except AppError MoneyDb := do
  refuse (fingerprint ∈ db.intents.map Prod.fst)
    (.store (.conflict "withdraw intent fingerprint"))
  pure { db with intents := db.intents ++ [(fingerprint, receipt)] }

/-- Bind the client's key to the intent, once. -/
def persistIdemp (cmd : RequestWithdrawCmd) (fingerprint : String) (db : MoneyDb) :
    Except AppError MoneyDb :=
  match cmd.idempotencyKey with
  | none => .ok db
  | some key =>
    match find Prod.fst (idempotencySlot cmd.user key) db.idempotency with
    | some existing =>
      if existing.2 = fingerprint then .ok db
      else .error (.store (.conflict "withdraw idempotency key"))
    | none =>
      .ok { db with
        idempotency := db.idempotency ++ [(idempotencySlot cmd.user key, fingerprint)] }

def persistReceipt (cmd : RequestWithdrawCmd) (fingerprint : String) (receipt : WithdrawalReceipt)
    (db : MoneyDb) : Except AppError (WithdrawalReceipt × MoneyDb) := do
  let db ← persistIntent fingerprint receipt db
  let db ← persistIdemp cmd fingerprint db
  pure (receipt, db)

/-- Why the request is not admitted, if so. -/
def admissionRefusal (cmd : RequestWithdrawCmd) (limits : WithdrawLimits) (view : UserMoneyView) :
    Option (String × String) :=
  if limits.pauseWithdrawals then some ("paused", "withdrawals are paused")
  else if view.status = .banned then some ("banned", "account is banned")
  else if view.kycTier < limits.withdrawKycTier then some ("kyc", "kyc tier too low")
  else if cmd.amountMicro < limits.minMicro ∨ limits.maxMicro < cmd.amountMicro then
    some ("amount", "amount outside per-tx bounds")
  else if cmd.hasClientIp = false then some ("geo_missing_ip", "client ip is required")
  else none

def withinLimits (db : MoneyDb) (cmd : RequestWithdrawCmd) (dest : String)
    (limits : WithdrawLimits) (since : Instant) : Except StoreError Bool := do
  let userSum ← db.windowSum (fun r => r.user = cmd.user) since
  let destSum ← db.windowSum (fun r => r.dest = dest) since
  let hotSum ← db.windowSum (fun _ => true) since
  pure (saturatingAdd userSum cmd.amountMicro ≤ limits.dailyMicro ∧
    saturatingAdd destSum cmd.amountMicro ≤ limits.destDailyMicro ∧
    saturatingAdd hotSum cmd.amountMicro ≤ limits.hotDailyMicro)

def currentReasons (db : MoneyDb) (facts : MoneyFacts) (cmd : RequestWithdrawCmd) (dest : String)
    (limits : WithdrawLimits) (view : UserMoneyView) : Except StoreError (List String) := do
  let flags ← facts.openAmlFlags
  let warmth ← db.destWarmth facts limits dest
  pure (reasonIf (limits.autoApproveMicro ≤ cmd.amountMicro) "amount_ge_auto" ++
    reasonIf (limits.dualControlMicro ≤ cmd.amountMicro) "amount_ge_dual" ++
    reasonIf (view.status = .shadowLimited) "shadow_limited" ++
    reasonIf (0 < flags) "aml_open" ++
    reasonIf (isFreshClear facts.sanctions facts.now = false) "sanctions_not_clear" ++
    reasonIf (isFreshClear facts.geo facts.now = false) "geo_not_clear" ++
    reasonIf (warmth.isWarm limits facts.now = false) "dest_not_warm" ++
    reasonIf (2 ≤ warmth.distinctUsers) "dest_shared" ++
    reasonIf (warmth.isRefundDest = true) "dest_is_refund" ++
    reasonIf ((∃ t ∈ view.selfExcludedUntil, facts.now < t) ∧
      db.isSelfExclusionEgress facts cmd.user dest = false) "self_exclusion_new_dest")

def requestedRow (facts : RequestFacts) (cmd : RequestWithdrawCmd) (dest fingerprint : String)
    (reasons : List String) : WithdrawalRow :=
  { id := facts.freshId, user := cmd.user, dest := dest, amountMicro := cmd.amountMicro
    combo := .w1, holdTx := "withdraw-hold:" ++ fingerprint, releaseTx := none, settleTx := none
    requestFingerprint := fingerprint, riskReasons := reasons, requestedAt := facts.money.now
    decidedAt := none, sentAt := none, settledAt := none }

def acceptance (row : WithdrawalRow) : WithdrawalReceipt :=
  { id := some row.id, user := row.user, dest := row.dest, amountMicro := row.amountMicro
    combo := some row.combo, holdTx := some row.holdTx, replayed := false, refused := false
    refuseCode := none, refuseMessage := none }

def placeHold (facts : RequestFacts) (cmd : RequestWithdrawCmd) (dest fingerprint : String)
    (limits : WithdrawLimits) (view : UserMoneyView) (db : MoneyDb) :
    Except AppError (WithdrawalReceipt × MoneyDb) := do
  facts.amlCandidate.mapError .store
  let reasons ← (currentReasons db facts.money cmd dest limits view).mapError .store
  let row := requestedRow facts cmd dest fingerprint reasons
  let held ← (db.applyHold row.user row.amountMicro row.holdTx).mapError .store
  let inserted ← (held.insertWithdrawal row).mapError .store
  persistReceipt cmd fingerprint (acceptance row)
    (inserted.appendEvent facts.money row.id "insert" "machine" none)

/-- Admission, cash and caps, in this order; then the hold. -/
def revalidateAndHold (facts : RequestFacts) (cmd : RequestWithdrawCmd) (dest fingerprint : String)
    (db : MoneyDb) : Except AppError (WithdrawalReceipt × MoneyDb) := do
  let limits ← facts.money.limits.mapError .store
  let view ← facts.money.view.mapError .store
  match admissionRefusal cmd limits view with
  | some (code, message) =>
    persistReceipt cmd fingerprint (refusal cmd dest code message) db
  | none => do
    let cashBalance := db.ledger.balanceOf (cash (.user cmd.user))
    refuse (cashBalance < 0) (.store (.invariant "user cash account is negative"))
    if cashBalance < cmd.amountMicro then
      persistReceipt cmd fingerprint
        (refusal cmd dest "insufficient_funds" "insufficient available cash") db
    else do
      let within ← (withinLimits db cmd dest limits (facts.money.now - hours 24)).mapError
        AppError.store
      if within then placeHold facts cmd dest fingerprint limits view db
      else
        persistReceipt cmd fingerprint
          (refusal cmd dest "limit" "withdrawal exceeds daily or destination cap") db

/-- The refusal for a screening that could not be made. -/
def remoteRefusal (facts : RequestFacts) : Option (String × String) :=
  match facts.geo, facts.sanctions with
  | .error _, _ => some ("geo_unavailable", "geo screening unavailable")
  | .ok _, .error _ => some ("sanctions_unavailable", "sanctions screening unavailable")
  | .ok _, .ok _ => none

def keyConflict (cmd : RequestWithdrawCmd) (fingerprint : String) (db : MoneyDb) : Bool :=
  match cmd.idempotencyKey with
  | none => false
  | some key =>
    match find Prod.fst (idempotencySlot cmd.user key) db.idempotency with
    | some existing => existing.2 ≠ fingerprint
    | none => false

def convertForWithdraw (facts : RequestFacts) (cmd : RequestWithdrawCmd) (fingerprint : String)
    (db : MoneyDb) : Except AppError MoneyDb := do
  let ledger ← convertThenCollect db.ledger cmd.user ("withdraw-lock:" ++ fingerprint) facts.lots
    facts.money.receivables
  pure { db with ledger := ledger }

def requestWithdraw (d : Digests) (facts : RequestFacts) (cmd : RequestWithdrawCmd)
    (db : MoneyDb) : Except AppError (WithdrawalReceipt × MoneyDb) := do
  let dest ← okOr (canonicalizeDest cmd.dest)
    (.configInvalid "dest" "dest must be a 32-byte solana pubkey")
  refuse (cmd.amountMicro ≤ 0) .insufficientFunds
  let fingerprint := d.intent cmd.user cmd.amountMicro dest
  match find Prod.fst fingerprint db.intents with
  | some hit => pure ({ hit.2 with replayed := true }, db)
  | none => do
    refuse (keyConflict cmd fingerprint db = true) .idempotencyConflict
    match remoteRefusal facts with
    | some (code, message) =>
      persistReceipt cmd fingerprint (refusal cmd dest code message) db
    | none => do
      let converted ← convertForWithdraw facts cmd fingerprint db
      revalidateAndHold facts cmd dest fingerprint converted

variable {cmd : RequestWithdrawCmd} {fingerprint : String} {r : WithdrawalReceipt}
  {db db' : MoneyDb} {receipt : WithdrawalReceipt} {dest : String}

/-- Storing a receipt writes intents and idempotency keys only. -/
theorem persistReceipt_spec (h : persistReceipt cmd fingerprint receipt db = .ok (r, db')) :
    db' = { db with intents := db'.intents, idempotency := db'.idempotency } := by
  simp only [persistReceipt, persistIntent, ok_iff] at h
  obtain ⟨_, ⟨_, -, rfl⟩, bound, hbound, -, rfl⟩ := h
  unfold persistIdemp at hbound
  split at hbound
  · cases hbound
    rfl
  · split at hbound
    · split_ifs at hbound
      cases hbound
      rfl
    · cases hbound
      rfl

section Parts

variable {mid : MoneyDb} {facts : RequestFacts} (hmid : Frame IsWithheld db.ledger mid.ledger)
  (hw : mid.withdrawals = db.withdrawals) (ho : mid.outbound = db.outbound)
include hmid hw ho

theorem persistReceipt_quiet (h : persistReceipt cmd fingerprint receipt mid = .ok (r, db')) :
    LocalEffect db db' := by
  rw [persistReceipt_spec h]
  exact ⟨.quiet hmid hw ho, ho⟩

theorem placeHold_effect {limits : WithdrawLimits} {view : UserMoneyView}
    (h : placeHold facts cmd dest fingerprint limits view mid = .ok (r, db')) :
    LocalEffect db db' := by
  simp only [placeHold, MoneyDb.applyHold, MoneyDb.insertWithdrawal, ok_iff] at h
  obtain ⟨_, -, reasons, -, held, ⟨ledger, hledger, rfl⟩, inserted, ⟨_, hfresh, rfl⟩, h⟩ := h
  rw [persistReceipt_spec h]
  refine ⟨.requested (requestedRow facts cmd dest fingerprint reasons) mid.ledger hmid
    (Ledger.twoLeg_spec hledger) rfl ⟨rfl, rfl⟩ ?_ ?_ ho, ho⟩
  · rwa [← hw]
  · rw [← hw]
    rfl

theorem revalidateAndHold_effect
    (h : revalidateAndHold facts cmd dest fingerprint mid = .ok (r, db')) : LocalEffect db db' := by
  simp only [revalidateAndHold, ok_iff] at h
  obtain ⟨limits, -, view, -, h⟩ := h
  split at h
  · exact persistReceipt_quiet hmid hw ho h
  · simp only [ok_iff] at h
    obtain ⟨_, -, h⟩ := h
    split_ifs at h
    · exact persistReceipt_quiet hmid hw ho h
    · simp only [bind_eq_ok] at h
      obtain ⟨within, -, h⟩ := h
      split_ifs at h
      · exact placeHold_effect hmid hw ho h
      · exact persistReceipt_quiet hmid hw ho h

end Parts

theorem requestWithdraw_effect {d : Digests} {facts : RequestFacts}
    (h : requestWithdraw d facts cmd db = .ok (r, db')) : LocalEffect db db' := by
  simp only [requestWithdraw, ok_iff] at h
  obtain ⟨dest, -, _, -, h⟩ := h
  split at h
  · cases h
    exact ⟨.quiet (Frame.refl _) rfl rfl, rfl⟩
  · simp only [ok_iff] at h
    obtain ⟨_, -, h⟩ := h
    split at h
    · exact persistReceipt_quiet (Frame.refl _) rfl rfl h
    · simp only [convertForWithdraw, ok_iff] at h
      obtain ⟨converted, ⟨ledger, hledger, rfl⟩, h⟩ := h
      refine revalidateAndHold_effect ?_ ?_ ?_ h
      · exact Frame.convertThenCollect (not_isWithheld_ingress cmd.user) hledger
      · rfl
      · rfl

end Opinions.Money
