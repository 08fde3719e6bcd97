import Opinions.Lib.Flight
import Opinions.Money.Attempts

/-! Withdrawal requests side by side (`application/src/money/withdraw_request.rs`). A
request looks its intent up without a lock and opens a transaction: it takes the lock of
the intent, looks again, takes the lock of the client's key, looks the key up, takes the
user's lock, and writes. -/

namespace Opinions.Money.Requests

open Lib Lib.Result Lib.Rows Lib.Run Lib.Locks Model Store Trade

inductive Lock
  | intent (fingerprint : String)
  | slot (slot : String)
  | user (user : UserId)
  deriving DecidableEq

/-- What a request does once neither its intent nor its key stops it. -/
def record (facts : RequestFacts) (cmd : RequestWithdrawCmd) (dest fingerprint : String)
    (db : MoneyDb) : Except AppError (WithdrawalReceipt × MoneyDb) :=
  match remoteRefusal facts with
  | some (code, message) => persistReceipt cmd fingerprint (refusal cmd dest code message) db
  | none => do
    let converted ← convertForWithdraw facts cmd fingerprint db
    revalidateAndHold facts cmd dest fingerprint converted

/-- Alone, a request is its lookups and then this. -/
theorem requestWithdraw_eq (d : Digests) (facts : RequestFacts) (cmd : RequestWithdrawCmd)
    (db : MoneyDb) :
    requestWithdraw d facts cmd db = (do
      let dest ← okOr (canonicalizeDest cmd.dest)
        (.configInvalid "dest" "dest must be a 32-byte solana pubkey")
      refuse (cmd.amountMicro ≤ 0) .insufficientFunds
      match find Prod.fst (d.intent cmd.user cmd.amountMicro dest) db.intents with
      | some hit => pure ({ hit.2 with replayed := true }, db)
      | none => do
        refuse (keyConflict cmd (d.intent cmd.user cmd.amountMicro dest) db = true)
          .idempotencyConflict
        record facts cmd dest (d.intent cmd.user cmd.amountMicro dest) db) := by
  unfold requestWithdraw record
  rfl

/-! ### What a request writes -/

def slotOf (cmd : RequestWithdrawCmd) : Option String :=
  cmd.idempotencyKey.map (idempotencySlot cmd.user)

/-- The intent the slot is bound to. -/
def boundTo (db : MoneyDb) (slot : String) : Option String :=
  (find Prod.fst slot db.idempotency).map Prod.snd

theorem keyConflict_eq (cmd : RequestWithdrawCmd) (fingerprint : String) (db : MoneyDb) :
    keyConflict cmd fingerprint db =
      ((slotOf cmd).bind (boundTo db)).any (· ≠ fingerprint) := by
  unfold keyConflict slotOf boundTo
  cases cmd.idempotencyKey with
  | none => rfl
  | some key =>
    simp only [Option.map_some, Option.bind_some]
    cases find Prod.fst (idempotencySlot cmd.user key) db.idempotency <;> rfl

/-- The intent is recorded, the key is bound to it, and at most one row is added. -/
structure Recorded (cmd : RequestWithdrawCmd) (dest fingerprint : String) (db db' : MoneyDb) :
    Prop where
  fresh : fingerprint ∉ db.intents.map Prod.fst
  intents : ∃ receipt, db'.intents = db.intents ++ [(fingerprint, receipt)]
  slots : db'.idempotency = db.idempotency ∨ ∃ slot, slotOf cmd = some slot ∧
    boundTo db slot = none ∧ db'.idempotency = db.idempotency ++ [(slot, fingerprint)]
  bound : ∀ slot, slotOf cmd = some slot → boundTo db' slot = some fingerprint
  rows : db'.withdrawals = db.withdrawals ∨ ∃ row : WithdrawalRow,
    db'.withdrawals = db.withdrawals ++ [row] ∧ row.user = cmd.user ∧
    row.amountMicro = cmd.amountMicro ∧ row.dest = dest ∧ row.requestFingerprint = fingerprint

variable {slot fingerprint : String} {db db' : MoneyDb} {d : Digests} {i : Nat}

theorem boundTo_append (h : db'.idempotency = db.idempotency ++ [(slot, fingerprint)])
    (other : String) :
    boundTo db' other = (boundTo db other).or (if slot = other then some fingerprint else none) := by
  simp only [boundTo, h, find_append, find_cons, find_nil, Option.map_or]
  split_ifs <;> rfl

variable {cmd : RequestWithdrawCmd} {dest : String} {r : WithdrawalReceipt}

theorem persistReceipt_recorded {receipt : WithdrawalReceipt} {mid : MoneyDb}
    (hintents : mid.intents = db.intents) (hslots : mid.idempotency = db.idempotency)
    (hrows : mid.withdrawals = db.withdrawals ∨ ∃ row : WithdrawalRow,
      mid.withdrawals = db.withdrawals ++ [row] ∧ row.user = cmd.user ∧
      row.amountMicro = cmd.amountMicro ∧ row.dest = dest ∧ row.requestFingerprint = fingerprint)
    (h : persistReceipt cmd fingerprint receipt mid = .ok (r, db')) :
    Recorded cmd dest fingerprint db db' := by
  simp only [persistReceipt, persistIntent, ok_iff] at h
  obtain ⟨_, ⟨_, hfresh, rfl⟩, bound, hbound, -, rfl⟩ := h
  rw [hintents] at hfresh
  unfold persistIdemp at hbound
  split at hbound
  · rename_i hkey
    cases hbound
    have hslot : slotOf cmd = none := by rw [slotOf, hkey, Option.map_none]
    refine ⟨hfresh, ⟨receipt, congrArg (· ++ _) hintents⟩, Or.inl hslots, fun slot hs => ?_, hrows⟩
    rw [hslot] at hs
    cases hs
  · rename_i key hkey
    have hslot : slotOf cmd = some (idempotencySlot cmd.user key) := by
      rw [slotOf, hkey, Option.map_some]
    split at hbound
    · rename_i existing hfound
      split_ifs at hbound with hsame
      cases hbound
      refine ⟨hfresh, ⟨receipt, congrArg (· ++ _) hintents⟩, Or.inl hslots, fun slot hs => ?_,
        hrows⟩
      obtain rfl := Option.mem_unique hslot hs
      exact Option.map_eq_some_iff.2 ⟨existing, hfound, hsame⟩
    · rename_i hfound
      cases hbound
      have hnone : boundTo db (idempotencySlot cmd.user key) = none := by
        rw [boundTo, ← hslots]
        exact Option.map_eq_none_iff.2 hfound
      have happend := congrArg (· ++ [(idempotencySlot cmd.user key, fingerprint)]) hslots
      refine ⟨hfresh, ⟨receipt, congrArg (· ++ _) hintents⟩, Or.inr ⟨_, hslot, hnone, happend⟩,
        fun slot hs => ?_, hrows⟩
      obtain rfl := Option.mem_unique hslot hs
      rw [boundTo_append happend, hnone, if_pos rfl]
      rfl

variable {facts : RequestFacts} {b : String} {n : Nat}

theorem record_recorded (h : record facts cmd dest fingerprint db = .ok (r, db')) :
    Recorded cmd dest fingerprint db db' := by
  unfold record at h
  split at h
  · refine persistReceipt_recorded ?_ ?_ (Or.inl ?_) h <;> rfl
  · simp only [convertForWithdraw, ok_iff] at h
    obtain ⟨_, ⟨_, -, rfl⟩, h⟩ := h
    simp only [revalidateAndHold, bind_eq_ok] at h
    obtain ⟨limits, -, view, -, h⟩ := h
    split at h
    · refine persistReceipt_recorded ?_ ?_ (Or.inl ?_) h <;> rfl
    · simp only [bind_eq_ok] at h
      obtain ⟨_, -, h⟩ := h
      split_ifs at h
      · refine persistReceipt_recorded ?_ ?_ (Or.inl ?_) h <;> rfl
      · simp only [bind_eq_ok] at h
        obtain ⟨within, -, h⟩ := h
        split_ifs at h
        · simp only [placeHold, MoneyDb.applyHold, MoneyDb.insertWithdrawal, ok_iff] at h
          obtain ⟨_, -, reasons, -, _, ⟨_, -, rfl⟩, _, ⟨_, -, rfl⟩, h⟩ := h
          refine persistReceipt_recorded ?_ ?_
            (Or.inr ⟨requestedRow facts cmd dest fingerprint reasons, ?_, rfl, rfl, rfl, rfl⟩) h <;>
          rfl
        · refine persistReceipt_recorded ?_ ?_ (Or.inl ?_) h <;> rfl

theorem Recorded.boundTo_kept {bound : String} (h : Recorded cmd dest fingerprint db db')
    (hbound : boundTo db slot = some bound) : boundTo db' slot = some bound := by
  rcases h.slots with hslots | ⟨own, -, -, hslots⟩
  · rwa [boundTo, hslots]
  · rw [boundTo_append hslots, hbound]
    rfl

theorem Recorded.boundTo_other (h : Recorded cmd dest fingerprint db db')
    (hne : slotOf cmd ≠ some slot) : boundTo db' slot = boundTo db slot := by
  rcases h.slots with hslots | ⟨own, hown, -, hslots⟩
  · rw [boundTo, hslots, boundTo]
  · have hslot : own ≠ slot := fun heq => hne (heq ▸ hown)
    rw [boundTo_append hslots, if_neg hslot, Option.or_none]

/-! ### Transactions -/

/-- A request in flight, with the intent its key was bound to when it came in. -/
structure Asked where
  facts : RequestFacts
  cmd : RequestWithdrawCmd
  dest : String
  fingerprint : String
  bound : Option String

/-- Where a request stands: before its first lookup, before its transaction, with the
intent's lock, past the second lookup, with the key's lock, past the key, and ready to
write. -/
inductive Phase
  | looking
  | missed
  | intentHeld
  | unrecorded
  | slotHeld
  | keyed
  | ready
  deriving DecidableEq

structure Session where
  asked : Asked
  phase : Phase

abbrev Sessions := Flight Session Lock

abbrev Halt := Blocked AppError

structure Answer where
  asked : Asked
  result : Except AppError WithdrawalReceipt

structure World where
  db : MoneyDb
  flight : Sessions
  answers : List Answer

inductive Action
  | start (i : Nat) (facts : RequestFacts) (cmd : RequestWithdrawCmd)
  | advance (i : Nat)
  | commit (i : Nat)
  | abort (i : Nat)
  /-- Other transactions. -/
  | elsewhere (db : MoneyDb)

/-- The next statement either goes on or answers. -/
inductive Reply
  | go (flight : Sessions) (phase : Phase)
  | answer (result : Except AppError WithdrawalReceipt)

def look (x : Asked) (db : MoneyDb) (f : Sessions) (miss : Phase) : Reply :=
  match find Prod.fst x.fingerprint db.intents with
  | some hit => .answer (.ok { hit.2 with replayed := true })
  | none => .go f miss

def Asked.advance (x : Asked) (i : Nat) (db : MoneyDb) (f : Sessions) : Phase → Except Halt Reply
  | .looking => .ok (look x db f .missed)
  | .missed => do
    let f ← f.hold i (.intent x.fingerprint)
    pure (.go f .intentHeld)
  | .intentHeld => .ok (look x db f .unrecorded)
  | .unrecorded =>
    match slotOf x.cmd with
    | none => .ok (.go f .keyed)
    | some slot => do
      let f ← f.hold i (.slot slot)
      pure (.go f .slotHeld)
  | .slotHeld =>
    if keyConflict x.cmd x.fingerprint db then .ok (.answer (.error .idempotencyConflict))
    else .ok (.go f .keyed)
  | .keyed =>
    -- a screening that failed is recorded without the user's lock
    if (remoteRefusal x.facts).isSome then .ok (.go f .ready)
    else do
      let f ← f.hold i (.user x.cmd.user)
      pure (.go f .ready)
  | .ready => .error .notReady

/-- What other transactions leave alone: intents, keys, and what each row asks for. -/
def sameRequests (db db' : MoneyDb) : Bool :=
  db'.intents = db.intents && db'.idempotency = db.idempotency &&
    db'.withdrawals.map (fun r => (r.user, r.amountMicro, r.dest, r.requestFingerprint)) =
      db.withdrawals.map fun r => (r.user, r.amountMicro, r.dest, r.requestFingerprint)

namespace World

def start : World := { db := .empty, flight := .empty, answers := [] }

def answered (w : World) (i : Nat) (x : Asked) (db : MoneyDb)
    (result : Except AppError WithdrawalReceipt) : World :=
  { db := db, flight := w.flight.finish i, answers := w.answers ++ [⟨x, result⟩] }

/-- A request that passes the checks of its form. -/
def asks (d : Digests) (facts : RequestFacts) (cmd : RequestWithdrawCmd) (db : MoneyDb) :
    Except AppError Asked := do
  let dest ← okOr (canonicalizeDest cmd.dest)
    (.configInvalid "dest" "dest must be a 32-byte solana pubkey")
  refuse (cmd.amountMicro ≤ 0) .insufficientFunds
  pure { facts := facts, cmd := cmd, dest := dest
         fingerprint := d.intent cmd.user cmd.amountMicro dest
         bound := (slotOf cmd).bind (boundTo db) }

def step (d : Digests) (w : World) : Action → Except Halt World
  | .start i facts cmd => do
    refuse ((w.flight.session i).isSome = true) .sessionExists
    let x ← (asks d facts cmd w.db).mapError .refused
    pure { w with flight := w.flight.put i ⟨x, .looking⟩ }
  | .advance i => do
    let s ← okOr (w.flight.session i) .noSession
    let reply ← s.asked.advance i w.db w.flight s.phase
    match reply with
    | .go f phase => pure { w with flight := f.put i { s with phase := phase } }
    | .answer result => pure (w.answered i s.asked w.db result)
  | .commit i => do
    let s ← okOr (w.flight.session i) .noSession
    refuse (s.phase ≠ .ready) .notReady
    match record s.asked.facts s.asked.cmd s.asked.dest s.asked.fingerprint w.db with
    | .ok (receipt, db) => pure (w.answered i s.asked db (.ok receipt))
    | .error e => pure (w.answered i s.asked w.db (.error e))
  | .abort i => .ok { w with flight := w.flight.finish i }
  | .elsewhere db => do
    refuse (sameRequests w.db db = false) .notReady
    pure { w with db := db }

end World

/-! ### What one statement does -/

def Phase.rank : Phase → Nat
  | .looking => 0
  | .missed => 1
  | .intentHeld => 2
  | .unrecorded => 3
  | .slotHeld => 4
  | .keyed => 5
  | .ready => 6

/-- A request in flight: the locks it holds by now, and what it has found out that those
locks keep true. -/
structure Current (d : Digests) (db : MoneyDb) (f : Sessions) (i : Nat) (x : Asked) (phase : Phase) :
    Prop where
  intent : x.fingerprint = d.intent x.cmd.user x.cmd.amountMicro x.dest
  bound : ∀ b, x.bound = some b → (slotOf x.cmd).bind (boundTo db) = some b
  intentHeld : 2 ≤ phase.rank → f.Holds i (.intent x.fingerprint)
  unrecorded : 3 ≤ phase.rank → x.fingerprint ∉ db.intents.map Prod.fst
  slotHeld : 4 ≤ phase.rank → ∀ slot, slotOf x.cmd = some slot → f.Holds i (.slot slot)
  keyed : 5 ≤ phase.rank → keyConflict x.cmd x.fingerprint db = false

variable {f : Sessions} {phase : Phase} {x : Asked} {w w' : World} {f' : Sessions} {reply : Reply}
  {s : Session}

namespace Current

theorem mono (h : Current d db f i x phase) (hkeeps : ∀ k, f.Holds i k → f'.Holds i k) :
    Current d db f' i x phase :=
  { h with
    intentHeld := fun hr => hkeeps _ (h.intentHeld hr)
    slotHeld := fun hr slot hs => hkeeps _ (h.slotHeld hr slot hs) }

/-- Bound to another intent, the request is in conflict. -/
theorem conflict (h : Current d db f i x phase) (hb : x.bound = some b) (hne : b ≠ x.fingerprint) :
    keyConflict x.cmd x.fingerprint db = true := by
  rw [keyConflict_eq, h.bound b hb]
  simpa using hne

theorem same (h : Current d db f i x phase) (hintents : db'.intents = db.intents)
    (hslots : db'.idempotency = db.idempotency) : Current d db' f i x phase := by
  have hbound : boundTo db' = boundTo db := by
    funext slot
    rw [boundTo, hslots, boundTo]
  refine { h with bound := ?_, unrecorded := ?_, keyed := ?_ }
  · rw [hbound]
    exact h.bound
  · rw [hintents]
    exact h.unrecorded
  · rw [keyConflict_eq, hbound, ← keyConflict_eq]
    exact h.keyed

/-- Another request records its intent under locks this one does not hold. -/
theorem recorded (h : Current d db f i x phase) (hrec : Recorded cmd dest fingerprint db db')
    (hintent : ¬f.Holds i (.intent fingerprint))
    (hslot : ∀ slot, slotOf cmd = some slot → ¬f.Holds i (.slot slot)) :
    Current d db' f i x phase where
  intent := h.intent
  bound := by
    intro b hb
    obtain ⟨slot, hs, hbound⟩ := Option.bind_eq_some_iff.1 (h.bound b hb)
    exact Option.bind_eq_some_iff.2 ⟨slot, hs, hrec.boundTo_kept hbound⟩
  intentHeld := h.intentHeld
  unrecorded := by
    intro hr
    obtain ⟨receipt, hintents⟩ := hrec.intents
    have hheld := h.intentHeld (by omega)
    rw [hintents, List.map_append, List.mem_append, not_or, List.map_singleton,
      List.mem_singleton]
    refine ⟨h.unrecorded hr, fun heq => hintent ?_⟩
    rwa [heq] at hheld
  slotHeld := h.slotHeld
  keyed := by
    intro hr
    rw [keyConflict_eq, ← h.keyed hr, keyConflict_eq]
    cases hs : slotOf x.cmd with
    | none => rfl
    | some slot =>
      have hheld := h.slotHeld (by omega) slot hs
      have hne : slotOf cmd ≠ some slot := fun heq => hslot slot heq hheld
      rw [Option.bind_some, Option.bind_some, hrec.boundTo_other hne]

end Current

theorem look_cases {miss : Phase} (h : look x db f miss = reply) :
    (∃ hit, find Prod.fst x.fingerprint db.intents = some hit ∧
        reply = .answer (.ok { hit.2 with replayed := true })) ∨
      x.fingerprint ∉ db.intents.map Prod.fst ∧ reply = .go f miss := by
  unfold look at h
  split at h
  · exact Or.inl ⟨_, ‹_›, h.symm⟩
  · rename_i hnone
    refine Or.inr ⟨fun hmem => ?_, h.symm⟩
    obtain ⟨r, hr, hkey⟩ := List.mem_map.1 hmem
    exact find_eq_none.1 hnone r hr hkey

/-- The ways a statement ends: it answers from a recorded intent, answers with a conflict,
takes a lock, or passes a check. -/
inductive Next (i : Nat) (db : MoneyDb) (f : Sessions) (x : Asked) : Phase → Reply → Prop
  | replayed (phase : Phase) (hit : String × WithdrawalReceipt)
      (early : phase = .looking ∨ phase = .intentHeld)
      (found : find Prod.fst x.fingerprint db.intents = some hit) :
      Next i db f x phase (.answer (.ok { hit.2 with replayed := true }))
  | conflicted (conflict : keyConflict x.cmd x.fingerprint db = true) :
      Next i db f x .slotHeld (.answer (.error .idempotencyConflict))
  | missed : Next i db f x .looking (.go f .missed)
  | intentHeld (f' : Sessions)
      (held : f.hold i (.intent x.fingerprint) = (.ok f' : Except Halt _)) :
      Next i db f x .missed (.go f' .intentHeld)
  | unrecorded (fresh : x.fingerprint ∉ db.intents.map Prod.fst) :
      Next i db f x .intentHeld (.go f .unrecorded)
  | keyless (none : slotOf x.cmd = none) : Next i db f x .unrecorded (.go f .keyed)
  | slotHeld (slot : String) (f' : Sessions) (some : slotOf x.cmd = some slot)
      (held : f.hold i (.slot slot) = (.ok f' : Except Halt _)) :
      Next i db f x .unrecorded (.go f' .slotHeld)
  | keyed (free : keyConflict x.cmd x.fingerprint db = false) :
      Next i db f x .slotHeld (.go f .keyed)
  | ready (f' : Sessions) (grown : Flight.Grown f f') : Next i db f x .keyed (.go f' .ready)

theorem Asked.advance_next (h : x.advance i db f phase = .ok reply) :
    Next i db f x phase reply := by
  cases phase with
  | looking =>
    rcases look_cases (Except.ok.inj h) with ⟨hit, hfound, rfl⟩ | ⟨-, rfl⟩
    · exact .replayed _ hit (Or.inl rfl) hfound
    · exact .missed
  | missed =>
    simp only [advance, ok_iff] at h
    obtain ⟨f', hheld, rfl⟩ := h
    exact .intentHeld f' hheld
  | intentHeld =>
    rcases look_cases (Except.ok.inj h) with ⟨hit, hfound, rfl⟩ | ⟨hfresh, rfl⟩
    · exact .replayed _ hit (Or.inr rfl) hfound
    · exact .unrecorded hfresh
  | unrecorded =>
    simp only [advance] at h
    split at h
    · cases h
      exact .keyless ‹_›
    · simp only [ok_iff] at h
      obtain ⟨f', hheld, rfl⟩ := h
      exact .slotHeld _ f' ‹_› hheld
  | slotHeld =>
    simp only [advance] at h
    split_ifs at h with hconflict
    · cases h
      exact .conflicted hconflict
    · cases h
      exact .keyed (Bool.eq_false_iff.2 hconflict)
  | keyed =>
    simp only [advance] at h
    split_ifs at h
    · cases h
      exact .ready f (.refl f)
    · simp only [ok_iff] at h
      obtain ⟨f', hheld, rfl⟩ := h
      exact .ready f' (Flight.hold_grown hheld)
  | ready => cases h

/-- Nothing is asked yet of an earlier phase. -/
theorem Phase.early {P : Prop} (h : phase.rank < n) (hle : n ≤ phase.rank) :
    P := absurd hle (not_le.2 h)

/-- A statement that goes on: locks are only gained, and what it found out holds. -/
theorem Current.next {phase' : Phase} (h : Current d db f i x phase)
    (hnext : Next i db f x phase (.go f' phase')) :
    Flight.Grown f f' ∧ Current d db f' i x phase' := by
  cases hnext with
  | missed =>
    exact ⟨.refl _, h.intent, h.bound, Phase.early (by decide), Phase.early (by decide),
      Phase.early (by decide), Phase.early (by decide)⟩
  | intentHeld _ held =>
    exact ⟨Flight.hold_grown held, h.intent, h.bound, fun _ => Flight.hold_holds held,
      Phase.early (by decide), Phase.early (by decide), Phase.early (by decide)⟩
  | unrecorded fresh =>
    exact ⟨.refl _, h.intent, h.bound, fun _ => h.intentHeld (by decide), fun _ => fresh,
      Phase.early (by decide), Phase.early (by decide)⟩
  | keyless hnone =>
    refine ⟨.refl _, h.intent, h.bound, fun _ => h.intentHeld (by decide),
      fun _ => h.unrecorded (by decide), fun _ slot hs => ?_, fun _ => ?_⟩
    · rw [hnone] at hs
      cases hs
    · rw [keyConflict_eq, hnone]
      rfl
  | slotHeld slot _ hsome held =>
    have hgrown := Flight.hold_grown held
    refine ⟨hgrown, h.intent, h.bound, fun _ => hgrown.keeps _ _ (h.intentHeld (by decide)),
      fun _ => h.unrecorded (by decide), fun _ own hs => ?_, Phase.early (by decide)⟩
    obtain rfl := Option.mem_unique hsome hs
    exact Flight.hold_holds held
  | keyed free =>
    exact ⟨.refl _, h.intent, h.bound, fun _ => h.intentHeld (by decide),
      fun _ => h.unrecorded (by decide), fun _ => h.slotHeld (by decide), fun _ => free⟩
  | ready _ grown =>
    have hready : Current d db f i x .ready :=
      ⟨h.intent, h.bound, fun _ => h.intentHeld (by decide), fun _ => h.unrecorded (by decide),
        fun _ => h.slotHeld (by decide), fun _ => h.keyed (by decide)⟩
    exact ⟨grown, hready.mono fun k => grown.keeps i k⟩

/-! ### Runs -/

inductive Moved (d : Digests) (w : World) : Action → World → Prop
  | started (i : Nat) (facts : RequestFacts) (cmd : RequestWithdrawCmd) (x : Asked)
      (asked : World.asks d facts cmd w.db = .ok x) :
      Moved d w (.start i facts cmd) { w with flight := w.flight.put i ⟨x, .looking⟩ }
  | went (i : Nat) (s : Session) (f : Sessions) (phase : Phase)
      (found : w.flight.session i = some s)
      (next : Next i w.db w.flight s.asked s.phase (.go f phase)) :
      Moved d w (.advance i) { w with flight := f.put i { s with phase := phase } }
  | told (i : Nat) (s : Session) (result : Except AppError WithdrawalReceipt)
      (found : w.flight.session i = some s)
      (next : Next i w.db w.flight s.asked s.phase (.answer result)) :
      Moved d w (.advance i) (w.answered i s.asked w.db result)
  | recorded (i : Nat) (s : Session) (receipt : WithdrawalReceipt) (db : MoneyDb)
      (found : w.flight.session i = some s) (phase : s.phase = .ready)
      (written : record s.asked.facts s.asked.cmd s.asked.dest s.asked.fingerprint w.db =
        .ok (receipt, db)) : Moved d w (.commit i) (w.answered i s.asked db (.ok receipt))
  | failed (i : Nat) (s : Session) (e : AppError) (found : w.flight.session i = some s)
      (phase : s.phase = .ready) :
      Moved d w (.commit i) (w.answered i s.asked w.db (.error e))
  | aborted (i : Nat) : Moved d w (.abort i) { w with flight := w.flight.finish i }
  | elsewhere (db : MoneyDb) (kept : sameRequests w.db db = true) :
      Moved d w (.elsewhere db) { w with db := db }

variable {a : Action}

theorem World.step_moved (h : w.step d a = .ok w') : Moved d w a w' := by
  cases a with
  | start i facts cmd =>
    simp only [step, ok_iff] at h
    obtain ⟨_, -, x, hx, rfl⟩ := h
    exact .started i facts cmd x hx
  | advance i =>
    simp only [step, ok_iff] at h
    obtain ⟨s, hs, reply, hreply, h⟩ := h
    cases reply with
    | go f phase =>
      cases h
      exact .went i s f phase hs (Asked.advance_next hreply)
    | answer result =>
      cases h
      exact .told i s result hs (Asked.advance_next hreply)
  | commit i =>
    simp only [step, not_not, ok_iff] at h
    obtain ⟨s, hs, _, hphase, h⟩ := h
    split at h <;> cases h
    · exact .recorded i s _ _ hs hphase ‹_›
    · exact .failed i s _ hs hphase
  | abort i =>
    cases h
    exact .aborted i
  | elsewhere db =>
    simp only [step, Bool.not_eq_false, ok_iff] at h
    obtain ⟨_, hkept, rfl⟩ := h
    exact .elsewhere db hkept

structure Sound (d : Digests) (w : World) : Prop where
  safe : Safe w.flight.locks
  current : ∀ i s, w.flight.session i = some s → Current d w.db w.flight i s.asked s.phase
  rows : ∀ r ∈ w.db.withdrawals,
    r.requestFingerprint = d.intent r.user r.amountMicro r.dest ∧
      r.requestFingerprint ∈ w.db.intents.map Prod.fst
  distinct : (w.db.withdrawals.map WithdrawalRow.requestFingerprint).Nodup

theorem sound_start (d : Digests) : Sound d .start where
  safe := safe_nil
  current := fun _ _ hs => by cases hs
  rows := List.forall_mem_nil _
  distinct := List.nodup_nil

section Steps

theorem Sound.put (h : Sound d w) (hgrown : Flight.Grown w.flight f)
    (hs : Current d w.db f i s.asked s.phase) : Sound d { w with flight := f.put i s } where
  safe := hgrown.safe h.safe
  current := hgrown.forall_put (hs.mono fun _ => id) fun j t ht =>
    (h.current j t ht).mono fun k => hgrown.keeps j k
  rows := h.rows
  distinct := h.distinct

theorem Sound.finish (h : Sound d w) (i : Nat) (answers : List Answer) :
    Sound d { w with flight := w.flight.finish i, answers := answers } where
  safe := h.safe.release i
  current := by
    intro j t ht
    obtain ⟨hj, ht⟩ := Flight.session_of_finish ht
    exact (h.current j t ht).mono fun k => Flight.holds_finish hj
  rows := h.rows
  distinct := h.distinct

/-- The intent and the row of a request that records. -/
theorem Sound.recorded (h : Sound d w)
    (hx : x.fingerprint = d.intent x.cmd.user x.cmd.amountMicro x.dest)
    (hrec : Recorded x.cmd x.dest x.fingerprint w.db db) :
    (∀ r ∈ db.withdrawals, r.requestFingerprint = d.intent r.user r.amountMicro r.dest ∧
        r.requestFingerprint ∈ db.intents.map Prod.fst) ∧
      (db.withdrawals.map WithdrawalRow.requestFingerprint).Nodup := by
  obtain ⟨receipt, hintents⟩ := hrec.intents
  have hold (r : WithdrawalRow) (hr : r ∈ w.db.withdrawals) :
      r.requestFingerprint = d.intent r.user r.amountMicro r.dest ∧
        r.requestFingerprint ∈ db.intents.map Prod.fst := by
    obtain ⟨hintent, hmem⟩ := h.rows r hr
    rw [hintents, List.map_append]
    exact ⟨hintent, List.mem_append_left _ hmem⟩
  rcases hrec.rows with hrows | ⟨row, hrows, huser, hamount, hdest, hfingerprint⟩
  · rw [hrows]
    exact ⟨hold, h.distinct⟩
  · rw [hrows]
    refine ⟨fun r hr => ?_, ?_⟩
    · rw [mem_concat] at hr
      rcases hr with hr | rfl
      · exact hold r hr
      · rw [hfingerprint, huser, hamount, hdest, hintents]
        exact ⟨hx, by simp⟩
    · rw [List.map_append, List.map_singleton]
      have hnew : row.requestFingerprint ∉
          w.db.withdrawals.map WithdrawalRow.requestFingerprint := by
        intro hmem
        obtain ⟨r, hr, heq⟩ := List.mem_map.1 hmem
        exact hrec.fresh (hfingerprint ▸ heq ▸ (h.rows r hr).2)
      simpa using h.distinct.concat hnew

/-- A request that records leaves the others as they were: it holds its locks alone. -/
theorem Sound.committed (h : Sound d w) (hs : w.flight.session i = some s)
    (hphase : s.phase = .ready)
    (hrec : Recorded s.asked.cmd s.asked.dest s.asked.fingerprint w.db db) (answers : List Answer) :
    Sound d { db := db, flight := w.flight.finish i, answers := answers } where
  safe := h.safe.release i
  current := by
    intro j t ht
    obtain ⟨hj, ht⟩ := Flight.session_of_finish ht
    have hown := h.current i s hs
    rw [hphase] at hown
    refine ((h.current j t ht).recorded hrec ?_ ?_).mono fun k => Flight.holds_finish hj
    · exact fun hheld => hj (h.safe.owner_eq hheld (hown.intentHeld (by decide)))
    · exact fun slot hslot hheld =>
        hj (h.safe.owner_eq hheld (hown.slotHeld (by decide) slot hslot))
  rows := (h.recorded (h.current i s hs).intent hrec).1
  distinct := (h.recorded (h.current i s hs).intent hrec).2

theorem sameRequests_spec (h : sameRequests db db' = true) :
    db'.intents = db.intents ∧ db'.idempotency = db.idempotency ∧
      db'.withdrawals.map (fun r => (r.user, r.amountMicro, r.dest, r.requestFingerprint)) =
        db.withdrawals.map fun r => (r.user, r.amountMicro, r.dest, r.requestFingerprint) := by
  simpa only [sameRequests, Bool.and_eq_true, decide_eq_true_eq, and_assoc] using h

theorem Sound.elsewhere (h : Sound d w) (hsame : sameRequests w.db db = true) :
    Sound d { w with db := db } := by
  obtain ⟨hintents, hslots, hrows⟩ := sameRequests_spec hsame
  refine ⟨h.safe, fun i s hs => (h.current i s hs).same hintents hslots, fun r hr => ?_, ?_⟩
  · have hmem := List.mem_map_of_mem
      (f := fun r : WithdrawalRow => (r.user, r.amountMicro, r.dest, r.requestFingerprint)) hr
    rw [hrows] at hmem
    obtain ⟨r', hr', heq⟩ := List.mem_map.1 hmem
    obtain ⟨huser, hamount, hdest, hfingerprint⟩ : r'.user = r.user ∧
        r'.amountMicro = r.amountMicro ∧ r'.dest = r.dest ∧
        r'.requestFingerprint = r.requestFingerprint := by simpa using heq
    rw [← huser, ← hamount, ← hdest, ← hfingerprint, hintents]
    exact h.rows r' hr'
  · have hprints := congrArg (List.map fun q : UserId × Int × String × String => q.2.2.2) hrows
    simp only [List.map_map] at hprints
    have hdistinct := h.distinct
    exact (congrArg List.Nodup hprints).mpr hdistinct

theorem step_sound (h : Sound d w) (hstep : w.step d a = .ok w') : Sound d w' := by
  cases World.step_moved hstep with
  | started i facts cmd x asked =>
    simp only [World.asks, ok_iff] at asked
    obtain ⟨dest, -, _, -, rfl⟩ := asked
    exact h.put (.refl _) ⟨rfl, fun _ hb => hb, (by rintro ⟨⟩), (by rintro ⟨⟩),
      (by rintro ⟨⟩), (by rintro ⟨⟩)⟩
  | went i s f phase found next =>
    obtain ⟨hgrown, hcurrent⟩ := (h.current i s found).next next
    exact h.put hgrown hcurrent
  | told i | failed i | aborted i => exact h.finish i _
  | recorded i s receipt db found phase written =>
    exact h.committed found phase (record_recorded written) _
  | elsewhere db kept => exact h.elsewhere kept

end Steps

/-! ### What clients can rely on -/

/-- A command whose intent is recorded comes with no key that is bound to another one. -/
def unmixed (w : World) : Action → Bool
  | .advance i => (w.flight.session i).all fun s =>
      !((find Prod.fst s.asked.fingerprint w.db.intents).isSome &&
        keyConflict s.asked.cmd s.asked.fingerprint w.db)
  | _ => true

/-- Asked under a key that was bound to another intent, the client is told so. -/
def Refused (d : Digests) (a : Answer) : Prop :=
  ∀ user amountMicro dest, a.asked.bound = some (d.intent user amountMicro dest) →
    (user, amountMicro, dest) ≠ (a.asked.cmd.user, a.asked.cmd.amountMicro, a.asked.dest) →
    a.result = .error .idempotencyConflict

def InjectiveIntent (d : Digests) : Prop :=
  ∀ u a x u' a' x', d.intent u a x = d.intent u' a' x' → (u, a, x) = (u', a', x')

section Clients

/-- Not in conflict, the request is not under a key bound to another intent. -/
theorem Current.refused (hd : InjectiveIntent d) (h : Current d db f i x phase)
    (hfree : keyConflict x.cmd x.fingerprint db = false)
    (result : Except AppError WithdrawalReceipt) : Refused d ⟨x, result⟩ := by
  intro user amountMicro dest hbound hne
  have hother : d.intent user amountMicro dest ≠ x.fingerprint := by
    intro heq
    rw [h.intent] at heq
    exact hne (hd _ _ _ _ _ _ heq)
  rw [h.conflict hbound hother] at hfree
  cases hfree

theorem step_refused (hd : InjectiveIntent d) (h : Sound d w)
    (hanswers : ∀ b ∈ w.answers, Refused d b) (hunmixed : unmixed w a = true)
    (hstep : w.step d a = .ok w') : ∀ b ∈ w'.answers, Refused d b := by
  have hadd {x : Asked} {result : Except AppError WithdrawalReceipt}
      (hnew : Refused d ⟨x, result⟩) : ∀ b ∈ w.answers ++ [⟨x, result⟩], Refused d b := by
    intro b hb
    rw [mem_concat] at hb
    rcases hb with hb | rfl
    · exact hanswers b hb
    · exact hnew
  cases World.step_moved hstep with
  | started | went | aborted | elsewhere => exact hanswers
  | told i s result found next =>
    refine hadd ?_
    generalize hphase : s.phase = phase at next
    cases next with
    | replayed _ hit early hfound =>
      refine (h.current i s found).refused hd ?_ _
      simpa [unmixed, found, hfound] using hunmixed
    | conflicted => exact fun _ _ _ _ _ => rfl
  | recorded i s _ _ found phase | failed i s _ found phase =>
    have hcurrent := h.current i s found
    have hkeyed := hcurrent.keyed
    rw [phase] at hkeyed
    exact hadd (hcurrent.refused hd (hkeyed (by decide)) _)

theorem Sound.one_hold (h : Sound d w) :
    (w.db.withdrawals.map fun r => (r.user, r.amountMicro, r.dest)).Nodup := by
  have hprints : w.db.withdrawals.map WithdrawalRow.requestFingerprint =
      (w.db.withdrawals.map fun r => (r.user, r.amountMicro, r.dest)).map
        fun q => d.intent q.1 q.2.1 q.2.2 := by
    rw [List.map_map]
    exact List.map_congr_left fun r hr => (h.rows r hr).1
  have hdistinct := h.distinct
  rw [hprints] at hdistinct
  exact List.Nodup.of_map _ hdistinct

theorem step_boundTo (hstep : w.step d a = .ok w') (hb : boundTo w.db slot = some b) :
    boundTo w'.db slot = some b := by
  cases World.step_moved hstep with
  | started | went | told | failed | aborted => exact hb
  | recorded i s receipt db found phase written =>
    exact (record_recorded written).boundTo_kept hb
  | elsewhere db kept =>
    rwa [boundTo, (sameRequests_spec kept).2.1]

theorem record_fresh (h : record facts cmd dest fingerprint db = .ok (r, db')) :
    r.replayed = false := by
  have hpersist {receipt : WithdrawalReceipt} {mid : MoneyDb} (hnew : receipt.replayed = false)
      (h : persistReceipt cmd fingerprint receipt mid = .ok (r, db')) : r.replayed = false := by
    simp only [persistReceipt, ok_iff] at h
    obtain ⟨_, -, _, -, rfl, -⟩ := h
    exact hnew
  unfold record at h
  split at h
  · exact hpersist rfl h
  · simp only [revalidateAndHold, bind_eq_ok] at h
    obtain ⟨_, -, _, -, _, -, h⟩ := h
    split at h
    · exact hpersist rfl h
    · simp only [bind_eq_ok] at h
      obtain ⟨_, -, h⟩ := h
      split_ifs at h
      · exact hpersist rfl h
      · simp only [bind_eq_ok] at h
        obtain ⟨_, -, h⟩ := h
        split_ifs at h
        · simp only [placeHold, bind_eq_ok] at h
          obtain ⟨_, -, _, -, _, -, _, -, h⟩ := h
          exact hpersist rfl h
        · exact hpersist rfl h

theorem step_answered (hstep : w.step d a = .ok w')
    (hanswer : w'.answers = w.answers ++ [⟨x, .ok r⟩]) :
    (r.replayed = true → w'.db = w.db) ∧
    (r.replayed = false → ∀ slot, slotOf x.cmd = some slot →
      boundTo w'.db slot = some x.fingerprint) := by
  cases World.step_moved hstep with
  | started | went | aborted | elsewhere => simp at hanswer
  | told i s result found next =>
    obtain ⟨-, hlast⟩ := List.append_inj' hanswer rfl
    obtain ⟨rfl, rfl⟩ := Answer.mk.inj (List.cons.inj hlast).1
    generalize hphase : s.phase = phase at next
    cases next with
    | replayed => exact ⟨fun _ => rfl, fun h => by cases h⟩
  | recorded i s receipt db found phase written =>
    obtain ⟨-, hlast⟩ := List.append_inj' hanswer rfl
    obtain ⟨rfl, hreceipt⟩ := Answer.mk.inj (List.cons.inj hlast).1
    cases hreceipt
    refine ⟨fun h => ?_, fun _ => (record_recorded written).bound⟩
    rw [record_fresh written] at h
    cases h
  | failed i s e found phase =>
    obtain ⟨-, hlast⟩ := List.append_inj' hanswer rfl
    cases (Answer.mk.inj (List.cons.inj hlast).1).2

end Clients

theorem sound_run (d : Digests) (actions : List Action) :
    Sound d (run (World.step d) .start actions) :=
  run_preserves (fun _ _ _ _ h hstep => step_sound h hstep) (sound_start d)

/-- One hold for each intent; a key stays bound to the intent first recorded under it; a
replay writes nothing; and, as long as no command whose intent is recorded comes under a
key bound to another one, a command under a bound key with another intent is refused. -/
theorem requests_idempotent (d : Digests) (hd : InjectiveIntent d) (actions : List Action) :
    ((run (World.step d) .start actions).db.withdrawals.map
      fun r => (r.user, r.amountMicro, r.dest)).Nodup ∧
    (∀ before later, actions = before ++ later → ∀ slot b,
      boundTo (run (World.step d) .start before).db slot = some b →
      boundTo (run (World.step d) .start actions).db slot = some b) ∧
    (∀ before a later w' x r, actions = before ++ a :: later →
      (run (World.step d) .start before).step d a = .ok w' →
      w'.answers = (run (World.step d) .start before).answers ++ [⟨x, .ok r⟩] →
      (r.replayed = true → w'.db = (run (World.step d) .start before).db) ∧
      (r.replayed = false → ∀ slot, slotOf x.cmd = some slot →
        boundTo w'.db slot = some x.fingerprint)) ∧
    (Along (World.step d) (fun w a => unmixed w a = true) .start actions →
      ∀ b ∈ (run (World.step d) .start actions).answers, Refused d b) := by
  refine ⟨(sound_run d actions).one_hold, ?_, ?_, fun hunmixed => ?_⟩
  · rintro before later rfl slot b hb
    rw [run_append]
    exact run_preserves (P := fun w => boundTo w.db slot = some b)
      (fun _ _ _ _ hb hstep => step_boundTo hstep hb) hb
  · rintro before a later w' x r rfl hstep hanswer
    exact step_answered hstep hanswer
  · have hboth := run_preserves_along (P := fun w => Sound d w ∧ ∀ b ∈ w.answers, Refused d b)
      (fun w a w' h hC hstep => ⟨step_sound h.1 hstep, step_refused hd h.1 h.2 hC hstep⟩)
      ⟨sound_start d, List.forall_mem_nil _⟩ hunmixed
    exact hboth.2

/-! ### A recorded intent under another intent's key -/

/-- The user, the sign, the amount in strokes and the destination. -/
def sampleIntent (user : UserId) (amountMicro : Int) (dest : String) : String :=
  String.ofList (user.uuid.text ++ (if 0 ≤ amountMicro then '+' else '-') ::
    (List.replicate amountMicro.natAbs '1' ++ ':' :: dest.toList))

theorem replicate_append_inj {a b : Char} (hab : a ≠ b) {m : Nat} {xs ys : List Char}
    (h : List.replicate m a ++ b :: xs = List.replicate n a ++ b :: ys) : m = n ∧ xs = ys := by
  induction m generalizing n with
  | zero =>
    cases n with
    | zero => exact ⟨rfl, (List.cons.inj h).2⟩
    | succ => exact absurd (List.cons.inj h).1.symm hab
  | succ m ih =>
    cases n with
    | zero => exact absurd (List.cons.inj h).1 hab
    | succ =>
      obtain ⟨rfl, hxs⟩ := ih (List.cons.inj h).2
      exact ⟨rfl, hxs⟩

def sampleDigests : Digests := ⟨sampleIntent, fun _ _ => ""⟩

theorem injectiveIntent_sample : InjectiveIntent sampleDigests := by
  intro u a x u' a' x' h
  have hlist := congrArg String.toList h
  simp only [sampleDigests, sampleIntent, String.toList_ofList] at hlist
  obtain ⟨htext, hrest⟩ := List.append_inj hlist (by rw [Uuid.length_text, Uuid.length_text])
  obtain ⟨hsign, hrest⟩ := List.cons.inj hrest
  obtain ⟨habs, hdest⟩ := replicate_append_inj (by decide) hrest
  have huser : u = u' := congrArg UserId.mk (Uuid.text_injective htext)
  have hamount : a = a' := by
    by_cases ha : 0 ≤ a <;> by_cases ha' : 0 ≤ a' <;> simp [ha, ha'] at hsign <;> omega
  rw [huser, hamount, String.toList_injective hdest]

def sampleUser : UserId := ⟨5⟩

def sampleDest : String := "11111111111111111111111111111111"

/-- A hundred deposited. -/
def sampleFunds : MoneyDb :=
  run (MoneyDb.step sampleDigests) MoneyDb.empty ((replacedHistory sampleUser ⟨1⟩).take 1)

/-- A request for an amount under a key. -/
def sampleAsk (i : Nat) (key : String) (amountMicro : Int) : Action :=
  .start i { money := replacedFacts, geo := .ok .hit, sanctions := .ok .hit, lots := []
             amlCandidate := .ok (), freshId := ⟨BitVec.ofNat 128 i⟩ }
    { user := sampleUser, amountMicro := amountMicro, dest := sampleDest, hasClientIp := true
      idempotencyKey := some key }

/-- A request from its start to its commit. -/
def sampleRequest (i : Nat) (key : String) (amountMicro : Int) : List Action :=
  sampleAsk i key amountMicro :: List.replicate 6 (.advance i) ++ [.commit i]

/-- Forty under the first key, thirty under the second. -/
def sampleRecorded : List Action :=
  .elsewhere sampleFunds :: sampleRequest 1 "first" 40 ++ sampleRequest 2 "second" 30

def sampleWorld (actions : List Action) : World := run (World.step sampleDigests) .start actions

/-- Thirty under the first key is answered with the receipt for thirty. -/
theorem answered_under_bound_key :
    InjectiveIntent sampleDigests ∧
    ∃ a ∈ (sampleWorld (sampleRecorded ++ sampleRequest 3 "first" 30)).answers,
      a.asked.bound = some (sampleDigests.intent sampleUser 40 sampleDest) ∧
      a.asked.cmd.amountMicro = 30 ∧ a.result.isOk = true :=
  ⟨injectiveIntent_sample, by decide +kernel⟩

/-- Twenty, which is not recorded, under the first key is refused. -/
theorem conflict_under_bound_key :
    ∃ a ∈ (sampleWorld (sampleRecorded ++ sampleRequest 3 "first" 20)).answers,
      a.asked.cmd.amountMicro = 20 ∧ a.result = .error .idempotencyConflict := by
  have hanswer : ∃ a ∈ (sampleWorld (sampleRecorded ++ sampleRequest 3 "first" 20)).answers,
      a.asked.bound = some (sampleDigests.intent sampleUser 40 sampleDest) ∧
      a.asked.cmd.amountMicro = 20 := by
    decide +kernel
  obtain ⟨a, ha, hbound, hamount⟩ := hanswer
  have hrefused := (requests_idempotent sampleDigests injectiveIntent_sample
    (sampleRecorded ++ sampleRequest 3 "first" 20)).2.2.2 (by decide +kernel) a ha
  refine ⟨a, ha, hamount, hrefused _ _ _ hbound fun heq => ?_⟩
  have hsame : (40 : Int) = a.asked.cmd.amountMicro := congrArg (fun q => q.2.1) heq
  omega

end Opinions.Money.Requests
