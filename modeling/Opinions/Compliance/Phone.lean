import Opinions.Compliance.Tables
import Opinions.Lib.Flight
import Opinions.Lib.Run

/-! Phone possession (`application/src/money/phone_verification.rs` and the phone queries
of `adapters/src/pg/compliance_tx.rs`). A number is stored as a keyed digest with the
version of the key, and the pair is unique. Rows under one key bind a number to one
account; rows under different keys do not see each other. -/

namespace Opinions.Compliance.Phone

open Lib Lib.Result Lib.Rows Lib.Run Model Store Trade Money Deposit Credit

/-- The hexadecimal text of HMAC-SHA-256 of a text under a key. -/
abbrev Mac := List UInt8 → List Char → String

structure PhoneVerificationRow where
  id : Uuid
  user : UserId
  numberHmac : String
  hmacKeyVersion : Int
  challenge : Option String
  expiresAt : Option Instant
  attempts : Int
  verifiedAt : Option Instant
  providerRef : Option String

def phoneChallengeTtl : Int := minutes 10

def phoneMaxAttempts : Int := 5

def isAsciiDigit (c : Char) : Bool := '0' ≤ c ∧ c ≤ '9'

/-- A plus and 8 to 15 digits, spaces and hyphens dropped. -/
def normalizeE164 (raw : String) : Except AppError String :=
  let compact := raw.toList.filter fun c => !isWhitespace c && c != '-'
  match compact with
  | '+' :: rest =>
    if rest.length < 8 ∨ 15 < rest.length ∨ rest.all isAsciiDigit = false then
      .error (.adminForbidden "phone must be E.164")
    else .ok (String.ofList compact)
  | _ => .error (.adminForbidden "phone must be E.164")

/-- The version is digested with the number. -/
def hmacE164 (mac : Mac) (secret : List UInt8) (keyVersion : Int) (e164 : String) :
    Except AppError String := do
  refuse (secret = []) (.adminForbidden "phone hmac secret is required")
  pure (mac secret (e164.toList ++ ':' :: (decimal keyVersion).toList))

def codeDigest (mac : Mac) (secret : List UInt8) (code : String) : Except AppError String := do
  refuse (secret = []) (.adminForbidden "phone hmac secret is required")
  pure (mac secret ("code:".toList ++ code.toList))

/-- A stored row, with the number and the key it was digested from. -/
structure Bound (mac : Mac) where
  row : PhoneVerificationRow
  e164 : String
  secret : List UInt8
  digest : hmacE164 mac secret row.hmacKeyVersion e164 = .ok row.numberHmac

/-- A challenge asked for, its number normalized and digested. -/
structure Request (mac : Mac) where
  user : UserId
  e164 : String
  secret : List UInt8
  keyVersion : Int
  numberHmac : String
  challenge : String
  now : Instant
  digest : hmacE164 mac secret keyVersion e164 = .ok numberHmac

variable {mac : Mac}

/-- The checks of `start_challenge` before its transaction. -/
def Request.make (mac : Mac) (user : UserId) (rawE164 : String) (secret : List UInt8)
    (keyVersion : Int) (code : String) (now : Instant) : Except AppError (Request mac) := do
  refuse (code.toList.length ≠ 6 ∨ code.toList.all isAsciiDigit = false)
    (.adminForbidden "challenge code must be 6 digits")
  let e164 ← normalizeE164 rawE164
  match hdigest : hmacE164 mac secret keyVersion e164 with
  | .error e => .error e
  | .ok numberHmac =>
    let challenge ← codeDigest mac secret code
    pure { user := user, e164 := e164, secret := secret, keyVersion := keyVersion
           numberHmac := numberHmac, challenge := challenge, now := now, digest := hdigest }

abbrev Rows (mac : Mac) := List (Bound mac)

def Bound.id (b : Bound mac) : Uuid := b.row.id

/-- Later expiry first, rows without one last. -/
def expiresBefore (a b : Bound mac) : Bool :=
  match a.row.expiresAt, b.row.expiresAt with
  | some x, some y => y ≤ x
  | some _, none => true
  | none, some _ => false
  | none, none => true

def activePhoneChallenge (user : UserId) (rows : Rows mac) : Option (Bound mac) :=
  ((rows.filter fun b => decide (b.row.user = user)).insertionSort
    fun a b => expiresBefore a b).head?

def phoneByHmac (hmac : String) (keyVersion : Int) (rows : Rows mac) : Option (Bound mac) :=
  rows.find? fun b => decide (b.row.numberHmac = hmac ∧ b.row.hmacKeyVersion = keyVersion)

/-- The row with another challenge, expiry, count of attempts and verification. -/
def Bound.changed (b : Bound mac) (challenge : Option String) (expiresAt : Option Instant)
    (attempts : Int) (verifiedAt : Option Instant) : Bound mac :=
  { b with
    row := { b.row with
      challenge := challenge, expiresAt := expiresAt, attempts := attempts
      verifiedAt := verifiedAt }
    digest := b.digest }

def refreshPhoneChallenge (id : Uuid) (challenge : String) (expiresAt : Instant)
    (rows : Rows mac) : Except StoreError (Rows mac) := do
  let b ← okOr (find Bound.id id rows) (.notFound "phone challenge")
  refuse (b.row.verifiedAt.isSome = true) (.notFound "phone challenge")
  pure (update Bound.id id
    (fun b => b.changed (some challenge) (some expiresAt) 0 b.row.verifiedAt) rows)

def consumePhoneAttempt (id : Uuid) (rows : Rows mac) : Except StoreError (Rows mac) := do
  let b ← okOr (find Bound.id id rows) (.conflict "phone challenge exhausted")
  refuse (phoneMaxAttempts ≤ b.row.attempts) (.conflict "phone challenge exhausted")
  pure (update Bound.id id
    (fun b => b.changed b.row.challenge b.row.expiresAt (b.row.attempts + 1) b.row.verifiedAt) rows)

def markPhoneVerified (id : Uuid) (at' : Instant) (rows : Rows mac) : Rows mac :=
  update Bound.id id (fun b => b.changed none b.row.expiresAt b.row.attempts (some at')) rows

/-- The unique index on the digest and its version. -/
def insertPhoneChallenge (b : Bound mac) (rows : Rows mac) : Except StoreError (Rows mac) := do
  refuse (b.id ∈ rows.map Bound.id ∨
    (phoneByHmac b.row.numberHmac b.row.hmacKeyVersion rows).isSome = true)
    (.conflict "phone number already bound")
  pure (rows ++ [b])

def Request.newRow (r : Request mac) (id : Uuid) : Bound mac :=
  { row := { id := id, user := r.user, numberHmac := r.numberHmac, hmacKeyVersion := r.keyVersion
             challenge := some r.challenge, expiresAt := some (r.now + phoneChallengeTtl)
             attempts := 0, verifiedAt := none, providerRef := none }
    e164 := r.e164, secret := r.secret, digest := r.digest }

/-- `start_challenge` with its user row locked, past the check of an active challenge, or
past the lookup of the digest; `verify_challenge` with the row it read. -/
inductive Session (mac : Mac)
  | started (r : Request mac)
  | checked (r : Request mac)
  | refreshing (r : Request mac) (id : Uuid)
  | inserting (r : Request mac)
  | verifying (active : Bound mac) (code : String) (secret : List UInt8) (now : Instant)

structure World (mac : Mac) where
  users : List UserId
  rows : Rows mac
  flight : Flight (Session mac) UserId

/-- Statements of the two operations. The key of each call is its own: keys are rotated
between calls. -/
inductive Action
  | start (i : Nat) (user : UserId) (rawE164 : String) (secret : List UInt8) (keyVersion : Int)
      (code : String) (now : Instant)
  | check (i : Nat)
  | lookup (i : Nat)
  | write (i : Nat) (freshId : Uuid)
  | verify (i : Nat) (user : UserId) (code : String) (secret : List UInt8) (now : Instant)
  | settle (i : Nat) (providerOk : Bool)
  | crash (i : Nat)

abbrev Halt := Blocked AppError

namespace World

def quiet (users : List UserId) : World mac := { users := users, rows := [], flight := .empty }

def put (w : World mac) (i : Nat) (s : Session mac) : World mac :=
  { w with flight := w.flight.put i s }

def finish (w : World mac) (i : Nat) : World mac := { w with flight := w.flight.finish i }

def commit (w : World mac) (i : Nat) (rows : Rows mac) : World mac :=
  { w with rows := rows, flight := w.flight.finish i }

/-- The rows after the attempt, the comparison and, if both codes agree, the mark. -/
def settled (active : Bound mac) (code : String) (secret : List UInt8) (now : Instant)
    (providerOk : Bool) (rows : Rows mac) : Except AppError (Rows mac) := do
  let consumed ← (consumePhoneAttempt active.id rows).mapError .store
  let expected ← okOr active.row.challenge (.store (.invariant "missing challenge"))
  let presented ← codeDigest mac secret code
  if presented ≠ expected ∨ providerOk = false then pure consumed
  else pure (markPhoneVerified active.id now consumed)

def step (w : World mac) : Action → Except Halt (World mac)
  | .start i user rawE164 secret keyVersion code now => do
    refuse ((w.flight.session i).isSome = true) .sessionExists
    let r ← (Request.make mac user rawE164 secret keyVersion code now).mapError .refused
    let flight ← w.flight.hold i user
    refuse (user ∉ w.users) (.refused (.store (.notFound "user")))
    pure ({ w with flight := flight }.put i (.started r))
  | .check i => do
    match ← okOr (w.flight.session i) .noSession with
    | .started r =>
      match activePhoneChallenge r.user w.rows with
      | some active =>
        refuse (active.row.verifiedAt = none ∧ ∃ expires ∈ active.row.expiresAt, r.now < expires)
          (.refused (.store (.conflict "one active phone challenge per account")))
        pure (w.put i (.checked r))
      | none => pure (w.put i (.checked r))
    | _ => .error .notReady
  | .lookup i => do
    match ← okOr (w.flight.session i) .noSession with
    | .checked r =>
      match phoneByHmac r.numberHmac r.keyVersion w.rows with
      | some existing =>
        refuse (existing.row.user ≠ r.user)
          (.refused (.store (.conflict "phone number already bound")))
        if existing.row.verifiedAt.isSome then pure (w.finish i)
        else pure (w.put i (.refreshing r existing.id))
      | none => pure (w.put i (.inserting r))
    | _ => .error .notReady
  | .write i freshId => do
    match ← okOr (w.flight.session i) .noSession with
    | .refreshing r id =>
      let rows ← ((refreshPhoneChallenge id r.challenge (r.now + phoneChallengeTtl)
        w.rows).mapError .store).mapError .refused
      pure (w.commit i rows)
    | .inserting r =>
      let rows ← ((insertPhoneChallenge (r.newRow freshId) w.rows).mapError
        AppError.store).mapError .refused
      pure (w.commit i rows)
    | _ => .error .notReady
  | .verify i user code secret now => do
    refuse ((w.flight.session i).isSome = true) .sessionExists
    let active ← okOr (activePhoneChallenge user w.rows)
      (.refused (.store (.notFound "phone challenge")))
    if active.row.verifiedAt.isSome then pure w
    else do
      refuse (∃ expires ∈ active.row.expiresAt, expires ≤ now)
        (.refused (.store (.conflict "phone challenge expired")))
      pure (w.put i (.verifying active code secret now))
  | .settle i providerOk => do
    match ← okOr (w.flight.session i) .noSession with
    | .verifying active code secret now =>
      let rows ← (settled active code secret now providerOk w.rows).mapError .refused
      pure (w.commit i rows)
    | _ => .error .notReady
  | .crash i => .ok (w.finish i)

end World

/-- What no update of a row changes: whose it is, and what was digested how. -/
structure Binding where
  user : UserId
  numberHmac : String
  hmacKeyVersion : Int
  e164 : String
  secret : List UInt8

def Bound.binding (b : Bound mac) : Binding :=
  { user := b.row.user, numberHmac := b.row.numberHmac, hmacKeyVersion := b.row.hmacKeyVersion
    e164 := b.e164, secret := b.secret }

/-- A step keeps all bindings or adds the one of a new challenge. -/
inductive Moved (w w' : World mac) : Action → Prop
  | kept (a : Action) (bindings : w'.rows.map Bound.binding = w.rows.map Bound.binding) :
      Moved w w' a
  | inserted (i : Nat) (freshId : Uuid) (r : Request mac)
      (found : w.flight.session i = some (.inserting r))
      (rows : insertPhoneChallenge (r.newRow freshId) w.rows = .ok w'.rows) :
      Moved w w' (.write i freshId)

theorem binding_update (id : Uuid) {f : Bound mac → Bound mac}
    (h : ∀ b, (f b).binding = b.binding) (rows : Rows mac) :
    (update Bound.id id f rows).map Bound.binding = rows.map Bound.binding := by
  rw [update, List.map_map]
  refine List.map_congr_left fun b _ => ?_
  dsimp only [Function.comp_apply]
  split_ifs
  · exact h b
  · rfl

variable {rows rows' : Rows mac}

theorem refreshPhoneChallenge_kept {id : Uuid} {challenge : String} {expiresAt : Instant}
    (h : refreshPhoneChallenge id challenge expiresAt rows = .ok rows') :
    rows'.map Bound.binding = rows.map Bound.binding := by
  simp only [refreshPhoneChallenge, ok_iff] at h
  obtain ⟨b, -, -, -, rfl⟩ := h
  exact binding_update id (by intro; rfl) rows

theorem consumePhoneAttempt_kept {id : Uuid} (h : consumePhoneAttempt id rows = .ok rows') :
    rows'.map Bound.binding = rows.map Bound.binding := by
  simp only [consumePhoneAttempt, ok_iff] at h
  obtain ⟨b, -, -, -, rfl⟩ := h
  exact binding_update id (by intro; rfl) rows

theorem settled_kept {active : Bound mac} {code : String} {secret : List UInt8} {now : Instant}
    {providerOk : Bool} (h : World.settled active code secret now providerOk rows = .ok rows') :
    rows'.map Bound.binding = rows.map Bound.binding := by
  simp only [World.settled, ok_iff] at h
  obtain ⟨consumed, hconsumed, expected, -, presented, -, h⟩ := h
  split_ifs at h with hmismatch <;> cases h
  · exact consumePhoneAttempt_kept hconsumed
  · exact (binding_update active.id (by intro; rfl) consumed).trans
      (consumePhoneAttempt_kept hconsumed)

variable {a : Action}

theorem World.step_moved {w w' : World mac} (h : w.step a = .ok w') : Moved w w' a := by
  cases a with
  | start =>
    simp only [step, ok_iff] at h
    obtain ⟨-, -, r, -, flight, -, -, -, rfl⟩ := h
    exact .kept _ rfl
  | check =>
    simp only [step, bind_eq_ok] at h
    obtain ⟨s, -, h⟩ := h
    split at h
    · split at h
      · simp only [ok_iff] at h
        obtain ⟨-, -, rfl⟩ := h
        exact .kept _ rfl
      · cases h
        exact .kept _ rfl
    · cases h
  | lookup =>
    simp only [step, bind_eq_ok] at h
    obtain ⟨s, -, h⟩ := h
    split at h
    · split at h
      · simp only [bind_eq_ok] at h
        obtain ⟨-, -, h⟩ := h
        split_ifs at h <;> cases h <;> exact .kept _ rfl
      · cases h
        exact .kept _ rfl
    · cases h
  | write i freshId =>
    simp only [step, ok_iff] at h
    obtain ⟨s, hfound, h⟩ := h
    split at h
    · simp only [ok_iff] at h
      obtain ⟨rows, hrows, rfl⟩ := h
      exact .kept _ (refreshPhoneChallenge_kept hrows)
    · simp only [ok_iff] at h
      obtain ⟨rows, hrows, rfl⟩ := h
      exact .inserted i freshId _ hfound hrows
    · cases h
  | verify =>
    simp only [step, bind_eq_ok] at h
    obtain ⟨-, -, active, -, h⟩ := h
    split_ifs at h
    · cases h
      exact .kept _ rfl
    · simp only [ok_iff] at h
      obtain ⟨-, -, rfl⟩ := h
      exact .kept _ rfl
  | settle =>
    simp only [step, bind_eq_ok] at h
    obtain ⟨s, -, h⟩ := h
    split at h
    · simp only [ok_iff] at h
      obtain ⟨rows, hrows, rfl⟩ := h
      exact .kept _ (settled_kept hrows)
    · cases h
  | crash =>
    cases h
    exact .kept _ rfl

variable {b : Bound mac}

theorem insertPhoneChallenge_spec (h : insertPhoneChallenge b rows = .ok rows') :
    rows' = rows ++ [b] ∧ ∀ c ∈ rows, c.row.numberHmac = b.row.numberHmac →
      c.row.hmacKeyVersion ≠ b.row.hmacKeyVersion := by
  simp only [insertPhoneChallenge, not_or, Bool.not_eq_true, Option.isSome_eq_false_iff,
    Option.isNone_iff_eq_none, ok_iff] at h
  obtain ⟨-, ⟨-, hnone⟩, rfl⟩ := h
  refine ⟨rfl, fun c hc hhmac hversion => ?_⟩
  have := List.find?_eq_none.1 hnone c hc
  simp [hhmac, hversion] at this

/-- The rows of one digest under one version are one account's. -/
def Exclusive (rows : Rows mac) : Prop :=
  ∀ b ∈ rows, ∀ c ∈ rows, b.row.numberHmac = c.row.numberHmac →
    b.row.hmacKeyVersion = c.row.hmacKeyVersion → b.row.user = c.row.user

/-- All rows were digested under one key. -/
def Uniform (rows : Rows mac) : Prop :=
  ∀ b ∈ rows, ∀ c ∈ rows, b.secret = c.secret ∧ b.row.hmacKeyVersion = c.row.hmacKeyVersion

def VerifiedWith (w : World mac) (user : UserId) (e164 : String) : Prop :=
  ∃ b ∈ w.rows, b.row.user = user ∧ b.e164 = e164 ∧ b.row.verifiedAt.isSome = true

/-- When a row is inserted, all stored rows were digested under the key of the new one. -/
def sameKey (w : World mac) : Action → Bool
  | .write i _ =>
    match w.flight.session i with
    | some (.inserting r) =>
      ∀ b ∈ w.rows, b.secret = r.secret ∧ b.row.hmacKeyVersion = r.keyVersion
    | _ => true
  | _ => true

variable {w w' : World mac}

theorem exists_binding (h : rows'.map Bound.binding = rows.map Bound.binding) (hb : b ∈ rows') :
    ∃ c ∈ rows, c.binding = b.binding :=
  List.mem_map.1 (h ▸ List.mem_map_of_mem hb)

theorem forall_pairs {R : Bound mac → Bound mac → Prop} (hsymm : ∀ x y, R x y → R y x)
    (hself : R b b) (hold : ∀ x ∈ rows, ∀ y ∈ rows, R x y) (hnew : ∀ x ∈ rows, R x b) :
    ∀ x ∈ rows ++ [b], ∀ y ∈ rows ++ [b], R x y := by
  simp only [mem_concat]
  rintro x (hx | rfl) y (hy | rfl)
  · exact hold x hx y hy
  · exact hnew x hx
  · exact hsymm _ _ (hnew y hy)
  · exact hself

theorem step_exclusive (h : Exclusive w.rows) (hmoved : Moved w w' a) : Exclusive w'.rows := by
  cases hmoved with
  | kept _ bindings =>
    intro b hb c hc hhmac hversion
    obtain ⟨b₀, hb₀, hb⟩ := exists_binding bindings hb
    obtain ⟨c₀, hc₀, hc⟩ := exists_binding bindings hc
    simp only [Bound.binding, Binding.mk.injEq] at hb hc
    rw [← hb.1, ← hc.1]
    exact h b₀ hb₀ c₀ hc₀ (by rw [hb.2.1, hc.2.1, hhmac]) (by rw [hb.2.2.1, hc.2.2.1, hversion])
  | inserted i freshId r found rows =>
    obtain ⟨hrows, hfresh⟩ := insertPhoneChallenge_spec rows
    rw [hrows]
    refine forall_pairs (fun x y hxy hhmac hversion => ?_) (fun _ _ => rfl) h fun x hx hhmac => ?_
    · exact (hxy hhmac.symm hversion.symm).symm
    · exact fun hversion => absurd hversion (hfresh x hx hhmac)

theorem step_uniform (h : Uniform w.rows) (hkey : sameKey w a) (hmoved : Moved w w' a) :
    Uniform w'.rows := by
  cases hmoved with
  | kept _ bindings =>
    intro b hb c hc
    obtain ⟨b₀, hb₀, hb⟩ := exists_binding bindings hb
    obtain ⟨c₀, hc₀, hc⟩ := exists_binding bindings hc
    simp only [Bound.binding, Binding.mk.injEq] at hb hc
    rw [← hb.2.2.1, ← hb.2.2.2.2, ← hc.2.2.1, ← hc.2.2.2.2]
    exact h b₀ hb₀ c₀ hc₀
  | inserted i freshId r found rows =>
    obtain ⟨hrows, -⟩ := insertPhoneChallenge_spec rows
    simp only [sameKey, found, decide_eq_true_eq] at hkey
    rw [hrows]
    exact forall_pairs (fun _ _ hxy => ⟨hxy.1.symm, hxy.2.symm⟩) ⟨rfl, rfl⟩ h hkey

/-- Under one key a number has one digest, so its rows are one account's. -/
theorem Exclusive.user_eq (h : Exclusive rows) {c : Bound mac} (hb : b ∈ rows) (hc : c ∈ rows)
    (hnumber : b.e164 = c.e164) (hsecret : b.secret = c.secret)
    (hversion : b.row.hmacKeyVersion = c.row.hmacKeyVersion) : b.row.user = c.row.user := by
  refine h b hb c hc ?_ hversion
  have hdigest := b.digest
  rw [hsecret, hversion, hnumber, c.digest] at hdigest
  exact (Except.ok.inj hdigest).symm

/-- A digest that shows what it digests. -/
def sampleMac : Mac := fun _ text => String.ofList text

/-- One account's challenge and its verification under a key. -/
def sampleVerification (user : UserId) (keyVersion : Int) (freshId : Uuid) : List Action :=
  [.start 1 user "+1 555-000-1111" [7] keyVersion "123456" 0, .check 1, .lookup 1,
    .write 1 freshId, .verify 1 user "123456" [7] 1, .settle 1 true]

end Opinions.Compliance.Phone
