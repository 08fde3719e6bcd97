import Opinions.Lib.Flight
import Opinions.Money.Attempts

/-! When a payment is signed (`application/src/money/withdraw_send.rs`). A first send holds
the user's lock, reads one fact after another, passes the gate and then signs; a
replacement signs on the proof alone. Limits, statuses, flags and screenings may change
between any two statements; receivables are opened under the lock. -/

namespace Opinions.Money.Signing

open Lib Lib.Result Lib.Run Model Store Trade Domain.Ledger

/-- What the gate reads outside the withdrawal tables, as it is committed. -/
structure Standing where
  limits : WithdrawLimits
  view : UserId → UserMoneyView
  openAmlFlags : UserId → Nat
  /-- The latest screening of a user in a context. -/
  screening : UserId → String → Option ScreenVerdict
  isRefundDest : String → Bool
  isObservationSource : UserId → String → Bool
  /-- What is outstanding on each receivable of a user. -/
  outstanding : UserId → List Int

def geoContext (fingerprint : String) : String := "geo:withdraw:" ++ fingerprint

namespace Standing

def openReceivables (s : Standing) (user : UserId) : List Int :=
  (s.outstanding user).filter (0 < ·)

def sanctions (s : Standing) (row : WithdrawalRow) : Option ScreenVerdict :=
  s.screening row.user "withdraw"

def geo (s : Standing) (row : WithdrawalRow) : Option ScreenVerdict :=
  s.screening row.user (geoContext row.requestFingerprint)

end Standing

/-- Nothing stands against a payment of the withdrawal. -/
structure Unblocked (s : Standing) (now : Instant) (row : WithdrawalRow) : Prop where
  running : s.limits.pauseWithdrawals = false
  notBanned : (s.view row.user).status ≠ .banned
  unflagged : s.openAmlFlags row.user = 0
  settled : s.openReceivables row.user = []
  sanctions : isFreshClear (s.sanctions row) now = true
  geo : isFreshClear (s.geo row) now = true

/-! ### The gate, one read after another -/

inductive Fact
  | limits
  | view
  | openAmlFlags
  | sanctions
  | geo
  | observationSource
  | refundDest
  | receivables
  deriving DecidableEq

/-- The reads of the gate in their order. -/
def gateReads : List Fact :=
  [.limits, .view, .openAmlFlags, .sanctions, .geo, .observationSource, .refundDest, .receivables]

/-- Before the first read, at the instant the gate is asked for. -/
def unread (now : Instant) : MoneyFacts :=
  { now := now, dbNow := now, limits := .error (.notFound "config"), view := .error (.notFound "user")
    openAmlFlags := .error (.notFound "user"), sanctions := none, geo := none
    isRefundDest := false, isObservationSource := false, receivables := [] }

def Standing.read (s : Standing) (row : WithdrawalRow) (facts : MoneyFacts) : Fact → MoneyFacts
  | .limits => { facts with limits := .ok s.limits }
  | .view => { facts with view := .ok (s.view row.user) }
  | .openAmlFlags => { facts with openAmlFlags := .ok (s.openAmlFlags row.user) }
  | .sanctions => { facts with sanctions := s.sanctions row }
  | .geo => { facts with geo := s.geo row }
  | .observationSource =>
    { facts with isObservationSource := s.isObservationSource row.user row.dest }
  | .refundDest => { facts with isRefundDest := s.isRefundDest row.dest }
  | .receivables => { facts with receivables := s.openReceivables row.user }

/-- All of them read at once. -/
def Standing.facts (s : Standing) (now : Instant) (row : WithdrawalRow) : MoneyFacts :=
  gateReads.foldl (s.read row) (unread now)

/-- A fact read before is still what it was. -/
def Standing.Current (s : Standing) (row : WithdrawalRow) (facts : MoneyFacts) : Fact → Prop
  | .limits => facts.limits = .ok s.limits
  | .view => facts.view = .ok (s.view row.user)
  | .openAmlFlags => facts.openAmlFlags = .ok (s.openAmlFlags row.user)
  | .sanctions => facts.sanctions = s.sanctions row
  | .geo => facts.geo = s.geo row
  | .observationSource => True
  | .refundDest => True
  | .receivables => facts.receivables = s.openReceivables row.user

@[simp] theorem Standing.read_now (s : Standing) (row : WithdrawalRow) (facts : MoneyFacts)
    (f : Fact) : (s.read row facts f).now = facts.now := by
  cases f <;> rfl

theorem Standing.current_read (s : Standing) (row : WithdrawalRow) (facts : MoneyFacts)
    (f g : Fact) (h : g = f ∨ s.Current row facts g) : s.Current row (s.read row facts f) g := by
  cases f <;> cases g <;> first | rfl | trivial | exact h.resolve_left (by rintro ⟨⟩)

/-! ### What the gate lets through -/

variable {db : MoneyDb}

theorem ensureSendAllowed_spec {facts : MoneyFacts} {row : WithdrawalRow}
    (h : ensureSendAllowed facts row db = .ok ()) :
    (∃ limits, facts.limits = .ok limits ∧ limits.pauseWithdrawals = false) ∧
      (∃ view, facts.view = .ok view ∧ view.status ≠ .banned) ∧
      facts.openAmlFlags = .ok 0 ∧ isFreshClear facts.sanctions facts.now = true ∧
      isFreshClear facts.geo facts.now = true ∧ facts.receivables.foldl saturatingAdd 0 ≤ 0 := by
  simp only [ensureSendAllowed, Bool.not_eq_false, Bool.not_eq_true, not_lt, ok_iff] at h
  obtain ⟨limits, hlimits, view, hview, _, hpause, _, hbanned, _, -, _, -, flags, hflags, _, hzero,
    _, hsanctions, _, hgeo, _, -, _, -, _, -, _, -, _, -, _, -, _, -, hreceivables⟩ := h
  obtain rfl : flags = 0 := Nat.le_zero.1 hzero
  exact ⟨⟨limits, hlimits, hpause⟩, ⟨view, hview, hbanned⟩, hflags, hsanctions, hgeo, hreceivables⟩

/-- A saturating sum that has become positive stays so. -/
theorem foldl_saturatingAdd_pos {l : List Int} (hl : ∀ x ∈ l, 0 < x) {acc : Int} (hacc : 0 < acc) :
    0 < l.foldl saturatingAdd acc := by
  induction l generalizing acc with
  | nil => exact hacc
  | cons x l ih =>
    have hx := hl x List.mem_cons_self
    refine ih (fun y hy => hl y (List.mem_cons_of_mem x hy)) ?_
    simp only [saturatingAdd]
    omega

variable {user : UserId} {s : Standing} {now : Instant}

/-- Open receivables that sum to nothing are none. -/
theorem openReceivables_eq_nil (h : (s.openReceivables user).foldl saturatingAdd 0 ≤ 0) :
    s.openReceivables user = [] := by
  have hpos : ∀ x ∈ s.openReceivables user, 0 < x := fun x hx => by
    simpa using (List.mem_filter.1 hx).2
  cases hl : s.openReceivables user with
  | nil => rfl
  | cons x l =>
    rw [hl] at h hpos
    have hx := hpos x List.mem_cons_self
    have hfirst : 0 < saturatingAdd 0 x := by
      simp only [saturatingAdd]
      omega
    have hrest := foldl_saturatingAdd_pos (fun y hy => hpos y (List.mem_cons_of_mem x hy)) hfirst
    exact absurd hrest (not_lt.2 h)

/-- A gate that was passed on facts that still stand leaves nothing against the payment. -/
theorem unblocked_of_allowed {row : WithdrawalRow} {facts : MoneyFacts}
    (hcurrent : ∀ f, s.Current row facts f)
    (hsanctions : isFreshClear (s.sanctions row) facts.now = true →
      isFreshClear (s.sanctions row) now = true)
    (hgeo : isFreshClear (s.geo row) facts.now = true → isFreshClear (s.geo row) now = true)
    (h : ensureSendAllowed facts row db = .ok ()) : Unblocked s now row := by
  obtain ⟨⟨limits, hlimits, hpause⟩, ⟨view, hview, hbanned⟩, hflags, hfresh, hfreshGeo, hsum⟩ :=
    ensureSendAllowed_spec h
  obtain rfl := Except.ok.inj (hlimits.symm.trans (hcurrent .limits))
  obtain rfl := Except.ok.inj (hview.symm.trans (hcurrent .view))
  have hnone : s.openAmlFlags row.user = 0 :=
    Except.ok.inj ((hcurrent .openAmlFlags).symm.trans hflags)
  have hread : facts.receivables = s.openReceivables row.user := hcurrent .receivables
  have hs : facts.sanctions = s.sanctions row := hcurrent .sanctions
  have hg : facts.geo = s.geo row := hcurrent .geo
  exact ⟨hpause, hbanned, hnone, openReceivables_eq_nil (hread ▸ hsum), hsanctions (hs ▸ hfresh),
    hgeo (hg ▸ hfreshGeo)⟩

theorem current_facts (s : Standing) (now : Instant) (row : WithdrawalRow) (f : Fact) :
    s.Current row (s.facts now row) f := by
  cases f <;> first | rfl | trivial

/-! ### Signatures -/

abbrev Signed := List UInt8 × String × Int

def signClaim (facts : SendFacts) (row : WithdrawalRow) (db : MoneyDb) :
    Except AppError (OutboundPaymentRow × MoneyDb × Signed) := do
  let (payment, paid) ← claimPayment facts row db
  ensurePaymentMatches payment row facts.identity
  refuse (paid.outbound.attemptsFor payment.id ≠ [])
    (.store (.invariant "W2 already has a send attempt"))
  let signed ← facts.signed.mapError .store
  pure (payment, paid, signed)

variable {facts : SendFacts} {sent : Sent} {db' : MoneyDb} {follow : Combo} {s' : Standing}

theorem signed_of_claimW2 {row : WithdrawalRow} (h : claimW2 facts row db = .ok (sent, db')) :
    ∃ x, signClaim facts row db = .ok x := by
  simp only [claimW2, bind_eq_ok] at h
  obtain ⟨⟨payment, paid⟩, hpaid, _, hmatch, _, hempty, signed, hsigned, -⟩ := h
  refine ⟨(payment, paid, signed), ?_⟩
  simp only [signClaim, bind_eq_ok]
  exact ⟨_, hpaid, _, hmatch, _, hempty, signed, hsigned, rfl⟩

def signReplacement (facts : SendFacts) (observations : List QuorumObservation)
    (row : WithdrawalRow) (db : MoneyDb) :
    Except AppError (OutboundPaymentRow × OutboundAttemptRow × MoneyDb × Signed) := do
  refuse (row.combo ≠ .w7) .illegalTransition
  let payment ← matchedPayment facts.identity row db
  let old ← requireLiveAttempt payment db
  refuse (old.landingState ≠ .unknown) (.store (.invariant "W7 attempt is not unknown"))
  let height ← facts.height.mapError .store
  refuse (height ≤ old.lastValidBlockHeight) (.proposalConflict "blockhash has not expired")
  -- without the proof nothing is signed
  refuse (safeNonLandingVerdict old.lastValidBlockHeight observations facts.identity.rpcEndpoints ≠
    .definitiveFailed) (.proposalConflict "blockhash expired; archival proof is required")
  let failed ← saveAttempt { old with landingState := .definitiveFailed } db
  let signed ← facts.signed.mapError .store
  pure (payment, old, failed, signed)

/-- What `replace_expired` does with its row once it has it. -/
def replaceRow (facts : SendFacts) (observations : List QuorumObservation) (row : WithdrawalRow)
    (db : MoneyDb) : Except AppError (Sent × MoneyDb) := do
  refuse (row.combo ≠ .w7) .illegalTransition
  let payment ← matchedPayment facts.identity row db
  let old ← requireLiveAttempt payment db
  refuse (old.landingState ≠ .unknown) (.store (.invariant "W7 attempt is not unknown"))
  let height ← facts.height.mapError .store
  refuse (height ≤ old.lastValidBlockHeight) (.proposalConflict "blockhash has not expired")
  if safeNonLandingVerdict old.lastValidBlockHeight observations facts.identity.rpcEndpoints =
      .definitiveFailed then
    replaceAttempt facts row payment old db
  else do
    let saved ← saveAttempt old db
    pure (⟨row, none⟩, saved)

theorem replaceExpired_eq (facts : SendFacts) (observations : List QuorumObservation)
    (id : WithdrawalId) (user : UserId) (db : MoneyDb) :
    replaceExpired facts observations id user db =
      (lockedRow id user db >>= fun row => replaceRow facts observations row db) := rfl

theorem sendWithdraw_eq {id : WithdrawalId} {row : WithdrawalRow}
    (hrow : lockedRow id user db = .ok row) (hcombo : row.combo = .w2) :
    sendWithdraw facts id user db =
      (ensureSendAllowed facts.money row db >>= fun _ => claimW2 facts row db) := by
  rw [sendWithdraw, hrow, ok_bind, hcombo, if_neg (by decide), if_neg (by decide),
    if_neg (by decide)]
  rfl

variable {observations : List QuorumObservation}

/-- A replacement that moves its row on has signed. -/
theorem signed_of_replaceRow {row : WithdrawalRow}
    (h : replaceRow facts observations row db = .ok (sent, db'))
    (hfollow : sent.follow = some follow) :
    ∃ x, signReplacement facts observations row db = .ok x := by
  simp only [replaceRow, bind_eq_ok, refuse_eq_ok, not_not] at h
  obtain ⟨_, hcombo, payment, hp, old, hold, _, hstate, height, hheight, _, hexpired, h⟩ := h
  by_cases hproof : safeNonLandingVerdict old.lastValidBlockHeight observations
      facts.identity.rpcEndpoints = .definitiveFailed
  · rw [if_pos hproof] at h
    simp only [replaceAttempt, bind_eq_ok] at h
    obtain ⟨failed, hfailed, signed, hsigned, -⟩ := h
    refine ⟨(payment, old, failed, signed), ?_⟩
    simp only [signReplacement, bind_eq_ok, refuse_eq_ok, not_not]
    exact ⟨(), hcombo, payment, hp, old, hold, (), hstate, height, hheight, (), hexpired, (), hproof,
      failed, hfailed, signed, hsigned, rfl⟩
  · rw [if_neg hproof] at h
    simp only [bind_eq_ok, pure_eq_ok, Prod.mk.injEq] at h
    obtain ⟨_, -, rfl, -⟩ := h
    cases hfollow

/-! ### Transactions -/

/-- A first send that is at its gate or past it, and a replacement. -/
inductive Session
  | reading (row : WithdrawalRow) (facts : MoneyFacts) (left : List Fact)
  | cleared (row : WithdrawalRow)
  | replacing (row : WithdrawalRow)

def Session.row : Session → WithdrawalRow
  | .reading row _ _ => row
  | .cleared row => row
  | .replacing row => row

def Session.isFirst : Session → Bool
  | .replacing _ => false
  | _ => true

abbrev Sessions := Flight Session UserId

abbrev Halt := Blocked AppError

inductive Change
  | limits (limits : WithdrawLimits)
  | view (user : UserId) (view : UserMoneyView)
  | openAmlFlags (user : UserId) (count : Nat)
  | screening (user : UserId) (context : String) (verdict : Option ScreenVerdict)
  | destinations (isRefundDest : String → Bool) (isObservationSource : UserId → String → Bool)
  | receivables (user : UserId) (outstanding : List Int)

def Standing.apply (s : Standing) : Change → Standing
  | .limits limits => { s with limits := limits }
  | .view user view => { s with view := Function.update s.view user view }
  | .openAmlFlags user count =>
    { s with openAmlFlags := Function.update s.openAmlFlags user count }
  | .screening user context verdict =>
    { s with screening :=
        Function.update s.screening user (Function.update (s.screening user) context verdict) }
  | .destinations isRefundDest isObservationSource =>
    { s with isRefundDest := isRefundDest, isObservationSource := isObservationSource }
  | .receivables user outstanding =>
    { s with outstanding := Function.update s.outstanding user outstanding }

/-- The user whose lock the change is made under. -/
def Change.locks : Change → Option UserId
  | .receivables user _ => some user
  | _ => none

/-- The change is of something the gate of the user's withdrawals reads without a lock. -/
def Change.concerns (user : UserId) : Change → Bool
  | .limits _ => true
  | .view u _ => u = user
  | .openAmlFlags u _ => u = user
  | .screening u _ _ => u = user
  | .destinations _ _ => false
  | .receivables _ _ => false

/-- Every command of the withdrawal machine takes its user's lock. -/
def lockOf : Command → Option UserId
  | .request _ cmd => some cmd.user
  | .decide _ _ _ user _ => some user
  | .send _ _ user => some user
  | .broadcast _ _ user _ => some user
  | .replaceExpired _ _ _ user => some user
  | .markUnknown _ _ user => some user
  | .recoverW3 _ _ user => some user
  | .observeFinalized _ _ _ _ user => some user
  | .proveNonLanding _ _ _ _ user => some user
  | .settle _ _ _ _ user => some user
  | .refundPayment _ | .refundAttempt _ | .refundLanding _ | .post _ _ _ _ => none

/-- The commands that may sign; these run as sessions. -/
def maySign (db : MoneyDb) : Command → Bool
  | .send _ id _ => (db.withdrawal id).any (·.combo = .w2)
  | .replaceExpired _ _ _ _ => true
  | _ => false

inductive Action
  /-- `SendWithdraw::execute` on an approved row, or `replace_expired`: take the lock and
  the row. -/
  | start (i : Nat) (replacement : Bool) (id : WithdrawalId) (user : UserId)
  | advance (i : Nat)
  /-- Sign, persist and commit, or roll back. -/
  | sign (i : Nat) (facts : SendFacts) (observations : List QuorumObservation)
  | abort (i : Nat)
  | change (c : Change)
  | tick (now : Instant)
  | command (c : Command)

structure World where
  db : MoneyDb
  standing : Standing
  now : Instant
  flight : Sessions

/-- Nobody holds the lock, where there is one to take. -/
def free (f : Sessions) (lock : Option UserId) : Except Halt Unit :=
  refuse (lock.any fun u => f.locks.any (·.lock = u)) .waiting

def openSession (replacement : Bool) (now : Instant) (row : WithdrawalRow) :
    Except AppError Session := do
  if replacement then pure (.replacing row)
  else do
    refuse (row.combo ≠ .w2) .illegalTransition
    pure (.reading row (unread now) gateReads)

/-- The next read of the gate, or its decision. -/
def Session.advance (db : MoneyDb) (s : Standing) : Session → Except Halt Session
  | .reading row facts (f :: left) => .ok (.reading row (s.read row facts f) left)
  | .reading row facts [] => do
    (ensureSendAllowed facts row db).mapError .refused
    pure (.cleared row)
  | _ => .error .notReady

/-- The transaction's last part, which may yet fail. -/
def Session.last (db : MoneyDb) (facts : SendFacts) (observations : List QuorumObservation) :
    Session → Except Halt (Except AppError (Sent × MoneyDb))
  | .cleared row => .ok (claimW2 facts row db)
  | .replacing row => .ok (replaceRow facts observations row db)
  | .reading _ _ _ => .error .notReady

variable {w : World} {i : Nat}

namespace World

def quiet (db : MoneyDb) (standing : Standing) (now : Instant) : World :=
  { db := db, standing := standing, now := now, flight := .empty }

def step (d : Digests) (w : World) : Action → Except Halt World
  | .start i replacement id user => do
    refuse ((w.flight.session i).isSome = true) .sessionExists
    let f ← w.flight.hold i user
    let row ← (lockedRow id user w.db).mapError .refused
    let s ← (openSession replacement w.now row).mapError .refused
    pure { w with flight := f.put i s }
  | .advance i => do
    let s ← okOr (w.flight.session i) .noSession
    let s ← s.advance w.db w.standing
    pure { w with flight := w.flight.put i s }
  | .sign i facts observations => do
    let s ← okOr (w.flight.session i) .noSession
    let result ← s.last w.db facts observations
    pure { w with db := (result.toOption.map Prod.snd).getD w.db, flight := w.flight.finish i }
  | .abort i => .ok { w with flight := w.flight.finish i }
  | .change c => do
    free w.flight c.locks
    pure { w with standing := w.standing.apply c }
  | .tick now => do
    refuse (now < w.now) .notReady
    pure { w with now := now }
  | .command c => do
    refuse (maySign w.db c) .notReady
    free w.flight (lockOf c)
    let db ← (w.db.step d c).mapError .refused
    pure { w with db := db }

/-- The withdrawal a payment is signed for when the action is attempted now. -/
def signedRow (w : World) (i : Nat) (facts : SendFacts) (observations : List QuorumObservation) :
    Option WithdrawalRow :=
  match w.flight.session i with
  | some (.cleared row) => if (signClaim facts row w.db).isOk then some row else none
  | some (.replacing row) =>
    if (signReplacement facts observations row w.db).isOk then some row else none
  | _ => none

/-- Only a first send past its gate and a replacement sign. -/
theorem signedRow_cases {row : WithdrawalRow} (h : w.signedRow i facts observations = some row) :
    w.flight.session i = some (.cleared row) ∨ w.flight.session i = some (.replacing row) := by
  unfold signedRow at h
  split at h
  · obtain rfl := Option.some.inj (Option.ite_none_right_eq_some.1 h).2
    exact Or.inl ‹_›
  · obtain rfl := Option.some.inj (Option.ite_none_right_eq_some.1 h).2
    exact Or.inr ‹_›
  · cases h

/-- Whatever is handed to the broadcast was signed. -/
theorem signedRow_of_follow {s : Session} (hsession : w.flight.session i = some s)
    (hlast : s.last w.db facts observations = .ok (.ok (sent, db)))
    (hfollow : sent.follow = some follow) : w.signedRow i facts observations = some s.row := by
  cases s with
  | reading => cases hlast
  | cleared =>
    obtain ⟨x, hx⟩ := signed_of_claimW2 (Except.ok.inj hlast)
    simp [signedRow, hsession, hx, Except.isOk, Except.toBool, Session.row]
  | replacing =>
    obtain ⟨x, hx⟩ := signed_of_replaceRow (Except.ok.inj hlast) hfollow
    simp [signedRow, hsession, hx, Except.isOk, Except.toBool, Session.row]

end World

/-! ### What stands from the gate to the signature -/

inductive Moved (w : World) : Action → World → Prop
  | started (i : Nat) (replacement : Bool) (id : WithdrawalId) (user : UserId)
      (row : WithdrawalRow) (s : Session) (f : Sessions)
      (held : w.flight.hold i user = (.ok f : Except Halt _)) (owner : row.user = user)
      (opened : openSession replacement w.now row = .ok s) :
      Moved w (.start i replacement id user) { w with flight := f.put i s }
  | advanced (i : Nat) (s s' : Session) (found : w.flight.session i = some s)
      (next : s.advance w.db w.standing = .ok s') :
      Moved w (.advance i) { w with flight := w.flight.put i s' }
  | signed (i : Nat) (facts : SendFacts) (observations : List QuorumObservation) (db : MoneyDb) :
      Moved w (.sign i facts observations) { w with db := db, flight := w.flight.finish i }
  | aborted (i : Nat) : Moved w (.abort i) { w with flight := w.flight.finish i }
  | changed (c : Change) (unlocked : free w.flight c.locks = .ok ()) :
      Moved w (.change c) { w with standing := w.standing.apply c }
  | ticked (now : Instant) : Moved w (.tick now) { w with now := now }
  | commanded (c : Command) (db : MoneyDb) : Moved w (.command c) { w with db := db }

variable {d : Digests} {a : Action} {w' : World}

theorem World.step_moved (h : w.step d a = .ok w') : Moved w a w' := by
  cases a with
  | start i replacement id user =>
    simp only [step, ok_iff] at h
    obtain ⟨_, -, f, hheld, row, hrow, s, hs, rfl⟩ := h
    simp only [lockedRow, not_not, ok_iff] at hrow
    obtain ⟨_, -, _, howner, rfl⟩ := hrow
    exact .started i replacement id user _ s f hheld howner hs
  | advance i =>
    simp only [step, ok_iff] at h
    obtain ⟨s, hs, s', hnext, rfl⟩ := h
    exact .advanced i s s' hs hnext
  | sign i facts observations =>
    simp only [step, ok_iff] at h
    obtain ⟨_, -, _, -, rfl⟩ := h
    exact .signed i facts observations _
  | abort i =>
    cases h
    exact .aborted i
  | change c =>
    simp only [step, ok_iff] at h
    obtain ⟨_, hfree, rfl⟩ := h
    exact .changed c hfree
  | tick now =>
    simp only [step, ok_iff] at h
    obtain ⟨_, -, rfl⟩ := h
    exact .ticked now
  | command c =>
    simp only [step, ok_iff] at h
    obtain ⟨_, -, _, -, db, -, rfl⟩ := h
    exact .commanded c db

/-- The screenings of the withdrawal that are fresh at one instant are so at another. -/
def staysFresh (s : Standing) (row : WithdrawalRow) (now later : Instant) : Bool :=
  (!isFreshClear (s.sanctions row) now || isFreshClear (s.sanctions row) later) &&
    (!isFreshClear (s.geo row) now || isFreshClear (s.geo row) later)

/-- From its first read to its signature nothing a first send has read changes and no
screening lapses, and a replacement is asked for only while the gate would let the
withdrawal through. -/
def steady (w : World) : Action → Bool
  | .change c => w.flight.sessions.all fun p => !(p.2.isFirst && c.concerns p.2.row.user)
  | .tick now =>
    w.flight.sessions.all fun p => !p.2.isFirst || staysFresh w.standing p.2.row w.now now
  | .sign i _ _ =>
    match w.flight.session i with
    | some (.replacing row) => ensureSendAllowed (w.standing.facts w.now row) row w.db = .ok ()
    | _ => true
  | _ => true

theorem staysFresh_spec {row : WithdrawalRow} {later : Instant}
    (h : staysFresh s row now later = true) :
    (isFreshClear (s.sanctions row) now = true → isFreshClear (s.sanctions row) later = true) ∧
      (isFreshClear (s.geo row) now = true → isFreshClear (s.geo row) later = true) := by
  simp only [staysFresh, Bool.and_eq_true, Bool.or_eq_true, Bool.not_eq_true'] at h
  refine ⟨fun hnow => h.1.resolve_left ?_, fun hnow => h.2.resolve_left ?_⟩
  · simp [hnow]
  · simp [hnow]

/-- The same for everything the gate asks about the user. -/
structure SameFor (user : UserId) (s s' : Standing) : Prop where
  limits : s'.limits = s.limits
  view : s'.view user = s.view user
  openAmlFlags : s'.openAmlFlags user = s.openAmlFlags user
  screening : s'.screening user = s.screening user
  outstanding : s'.outstanding user = s.outstanding user

theorem sameFor_apply {c : Change} (hconcerns : c.concerns user = false)
    (hlock : c.locks ≠ some user) : SameFor user s (s.apply c) := by
  cases c with
  | limits => cases hconcerns
  | view u =>
    have hne : user ≠ u := fun heq => by simp [Change.concerns, heq] at hconcerns
    exact ⟨rfl, Function.update_of_ne hne _ _, rfl, rfl, rfl⟩
  | openAmlFlags u =>
    have hne : user ≠ u := fun heq => by simp [Change.concerns, heq] at hconcerns
    exact ⟨rfl, rfl, Function.update_of_ne hne _ _, rfl, rfl⟩
  | screening u =>
    have hne : user ≠ u := fun heq => by simp [Change.concerns, heq] at hconcerns
    exact ⟨rfl, rfl, rfl, Function.update_of_ne hne _ _, rfl⟩
  | destinations => exact ⟨rfl, rfl, rfl, rfl, rfl⟩
  | receivables u =>
    have hne : user ≠ u := fun heq => hlock (congrArg some heq.symm)
    exact ⟨rfl, rfl, rfl, rfl, Function.update_of_ne hne _ _⟩

/-- A gate under way: what it has read still stands. -/
structure Reading (s : Standing) (now : Instant) (row : WithdrawalRow) (facts : MoneyFacts)
    (left : List Fact) : Prop where
  current : ∀ f, f ∈ left ∨ s.Current row facts f
  sanctions : isFreshClear (s.sanctions row) facts.now = true →
    isFreshClear (s.sanctions row) now = true
  geo : isFreshClear (s.geo row) facts.now = true → isFreshClear (s.geo row) now = true

def Stands (s : Standing) (now : Instant) : Session → Prop
  | .reading row facts left => Reading s now row facts left
  | .cleared row => Unblocked s now row
  | .replacing _ => True

namespace SameFor

variable {row : WithdrawalRow} (h : SameFor row.user s s')
include h

theorem sanctions : s'.sanctions row = s.sanctions row := congrFun h.screening _

theorem geo : s'.geo row = s.geo row := congrFun h.screening _

theorem openReceivables : s'.openReceivables row.user = s.openReceivables row.user := by
  rw [Standing.openReceivables, h.outstanding, Standing.openReceivables]

theorem unblocked (hu : Unblocked s now row) : Unblocked s' now row where
  running := h.limits ▸ hu.running
  notBanned := h.view ▸ hu.notBanned
  unflagged := h.openAmlFlags ▸ hu.unflagged
  settled := h.openReceivables ▸ hu.settled
  sanctions := h.sanctions ▸ hu.sanctions
  geo := h.geo ▸ hu.geo

theorem current {facts : MoneyFacts} {f : Fact} (hf : s.Current row facts f) :
    s'.Current row facts f := by
  cases f with
  | limits => exact hf.trans (congrArg Except.ok h.limits.symm)
  | view => exact hf.trans (congrArg Except.ok h.view.symm)
  | openAmlFlags => exact hf.trans (congrArg Except.ok h.openAmlFlags.symm)
  | sanctions => exact hf.trans h.sanctions.symm
  | geo => exact hf.trans h.geo.symm
  | observationSource | refundDest => trivial
  | receivables => exact hf.trans h.openReceivables.symm

theorem reading {facts : MoneyFacts} {left : List Fact} (hr : Reading s now row facts left) :
    Reading s' now row facts left where
  current := fun f => (hr.current f).imp_right h.current
  sanctions := h.sanctions ▸ hr.sanctions
  geo := h.geo ▸ hr.geo

end SameFor

variable {t : Session}

theorem Stands.same (h : Stands s now t) (hsame : t.isFirst = true → SameFor t.row.user s s') :
    Stands s' now t := by
  cases t with
  | reading => exact (hsame rfl).reading h
  | cleared => exact (hsame rfl).unblocked h
  | replacing => trivial

theorem Stands.later {later : Instant} (h : Stands s now t)
    (hfresh : t.isFirst = true → staysFresh s t.row now later = true) : Stands s later t := by
  cases t with
  | reading row facts left =>
    obtain ⟨hsanctions, hgeo⟩ := staysFresh_spec (hfresh rfl)
    have hreading : Reading s now row facts left := h
    exact ⟨hreading.current, hsanctions ∘ hreading.sanctions, hgeo ∘ hreading.geo⟩
  | cleared row =>
    obtain ⟨hsanctions, hgeo⟩ := staysFresh_spec (hfresh rfl)
    have hunblocked : Unblocked s now row := h
    exact { hunblocked with
      sanctions := hsanctions hunblocked.sanctions, geo := hgeo hunblocked.geo }
  | replacing => trivial

theorem stands_open {replacement : Bool} {row : WithdrawalRow}
    (h : openSession replacement now row = .ok t) : Stands s now t ∧ t.row = row := by
  unfold openSession at h
  split_ifs at h
  · cases h
    exact ⟨trivial, rfl⟩
  · simp only [ok_iff] at h
    obtain ⟨_, -, rfl⟩ := h
    refine ⟨⟨fun f => Or.inl ?_, id, id⟩, rfl⟩
    cases f <;> decide

/-- The next read, or the decision on all of them. -/
theorem Stands.advance {t' : Session} (h : Stands s now t) (hnext : t.advance db s = .ok t') :
    Stands s now t' ∧ t'.row = t.row := by
  cases t with
  | reading row facts left =>
    have hreading : Reading s now row facts left := h
    cases left with
    | cons f =>
      cases hnext
      refine ⟨⟨fun g => ?_, ?_, ?_⟩, rfl⟩
      · rcases hreading.current g with hg | hg
        · rcases List.mem_cons.1 hg with rfl | hg
          · exact Or.inr (s.current_read row facts g g (Or.inl rfl))
          · exact Or.inl hg
        · exact Or.inr (s.current_read row facts f g (Or.inr hg))
      · rw [Standing.read_now]
        exact hreading.sanctions
      · rw [Standing.read_now]
        exact hreading.geo
    | nil =>
      simp only [Session.advance, ok_iff] at hnext
      obtain ⟨_, hallowed, rfl⟩ := hnext
      have hcurrent (f : Fact) := (hreading.current f).resolve_left List.not_mem_nil
      exact ⟨unblocked_of_allowed hcurrent hreading.sanctions hreading.geo hallowed, rfl⟩
  | cleared | replacing => cases hnext

structure Sound (w : World) : Prop where
  locked : ∀ i s, w.flight.session i = some s → w.flight.Holds i s.row.user
  stands : ∀ i s, w.flight.session i = some s → Stands w.standing w.now s

theorem Sound.put {f : Sessions} {s : Session} (h : Sound w) (hgrown : Flight.Grown w.flight f)
    (hlock : f.Holds i s.row.user) (hs : Stands w.standing w.now s) :
    Sound { w with flight := f.put i s } where
  locked := hgrown.forall_put hlock fun j t ht => hgrown.keeps _ _ (h.locked j t ht)
  stands := hgrown.forall_put hs h.stands

theorem Sound.finish (h : Sound w) (db : MoneyDb) (i : Nat) :
    Sound { w with db := db, flight := w.flight.finish i } where
  locked := by
    intro j t ht
    obtain ⟨hj, ht⟩ := Flight.session_of_finish ht
    exact Flight.holds_finish hj (h.locked j t ht)
  stands := fun j t ht => h.stands j t (Flight.session_of_finish ht).2

/-- A change under a user's lock waits for the sends of that user. -/
theorem Sound.unlocked (h : Sound w) {lock : Option UserId} (hfree : free w.flight lock = .ok ())
    {s : Session} (hs : w.flight.session i = some s) : lock ≠ some s.row.user := by
  rintro rfl
  simp only [free, refuse_eq_ok, Option.any_some, List.any_eq_true, not_exists] at hfree
  exact hfree _ ⟨h.locked i s hs, by simp⟩

theorem step_sound (h : Sound w) (hsteady : steady w a = true) (hstep : w.step d a = .ok w') :
    Sound w' := by
  cases World.step_moved hstep with
  | started i replacement id user row s f held owner opened =>
    obtain ⟨hstands, hrow⟩ := stands_open (s := w.standing) opened
    refine h.put (Flight.hold_grown held) ?_ hstands
    rw [hrow, owner]
    exact Flight.hold_holds held
  | advanced i s s' found next =>
    obtain ⟨hstands, hrow⟩ := (h.stands i s found).advance next
    refine h.put (.refl _) ?_ hstands
    rw [hrow]
    exact h.locked i s found
  | signed i | aborted i => exact h.finish _ i
  | changed c unlocked =>
    refine ⟨h.locked, fun i s hs => (h.stands i s hs).same fun hfirst => ?_⟩
    have hapart := List.all_eq_true.1 hsteady _ (Flight.mem_sessions hs)
    refine sameFor_apply ?_ (h.unlocked unlocked hs)
    simpa [hfirst] using hapart
  | ticked now =>
    refine ⟨h.locked, fun i s hs => (h.stands i s hs).later fun hfirst => ?_⟩
    have hfresh := List.all_eq_true.1 hsteady _ (Flight.mem_sessions hs)
    simpa [hfirst] using hfresh
  | commanded => exact ⟨h.locked, h.stands⟩

theorem sound_run {standing : Standing} {actions : List Action}
    (hsteady : Along (World.step d) (fun w a => steady w a = true) (.quiet db standing now) actions) :
    Sound (run (World.step d) (.quiet db standing now) actions) := by
  refine run_preserves_along (fun w a w' h hC hstep => step_sound h hC hstep) ?_ hsteady
  exact ⟨fun _ _ hs => (by cases hs), fun _ _ hs => (by cases hs)⟩

def sampleDigests : Digests := ⟨fun _ _ dest => dest, fun _ _ => ""⟩

def sampleUser : UserId := ⟨5⟩

def sampleId : WithdrawalId := ⟨9⟩

def sampleLimits : WithdrawLimits :=
  { minMicro := 1, maxMicro := 1000, dailyMicro := 1000, autoApproveMicro := 0
    dualControlMicro := 1000, destWarmFloorMicro := 0, destWarmAgeHours := 0
    destDailyMicro := 1000, hotDailyMicro := 1000, withdrawKycTier := 0
    pauseWithdrawals := false, approveDailyCapMicro := 1000 }

def sampleStanding : Standing :=
  { limits := sampleLimits, view := fun _ => ⟨.active, 1, none⟩, openAmlFlags := fun _ => 0
    screening := fun _ _ => some (.clear 0 1000 "v1"), isRefundDest := fun _ => false
    isObservationSource := fun _ _ => false, outstanding := fun _ => [] }

/-- The withdrawal after the first commands of its history: approved after four of them,
lost after seven. -/
def sampleWorld (n : Nat) (actions : List Action) : World :=
  run (World.step sampleDigests)
    (.quiet (run (MoneyDb.step sampleDigests) MoneyDb.empty
      ((replacedHistory sampleUser sampleId).take n)) sampleStanding 20) actions

def sampleProof : List QuorumObservation :=
  ["a", "b", "c"].map fun endpoint => ⟨endpoint, some 11, some false, false⟩

/-- The lost payment is replaced. -/
def sampleReplacement : List Action := [.start 1 true sampleId sampleUser]

/-- The approved payment goes through its gate. -/
def sampleGate : List Action :=
  .start 1 false sampleId sampleUser :: List.replicate 9 (.advance 1)

def sampleBanned : World :=
  sampleWorld 7 (.change (.view sampleUser ⟨.banned, 1, none⟩) :: sampleReplacement)

def samplePaused : World :=
  sampleWorld 4 (sampleGate ++ [.change (.limits { sampleLimits with pauseWithdrawals := true })])

/-- The row of the sample in a state of the machine. -/
def sampleRow (combo : Combo) (sentAt : Option Instant) : WithdrawalRow :=
  { id := sampleId, user := sampleUser, dest := "11111111111111111111111111111111"
    amountMicro := 40, combo := combo, holdTx := "withdraw-hold:11111111111111111111111111111111"
    releaseTx := none, settleTx := none, requestFingerprint := "11111111111111111111111111111111"
    riskReasons := ["amount_ge_auto", "dest_not_warm"], requestedAt := 20, decidedAt := some 20
    sentAt := sentAt, settledAt := none }

end Opinions.Money.Signing
