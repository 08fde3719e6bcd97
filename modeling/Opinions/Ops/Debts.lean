import Opinions.Lib.Budget
import Opinions.Ops.World

/-! No debt is settled twice, as long as collections and write-offs of one debt keep apart.
A receivable is a budget; a collection claims all it read as open, a write-off what it is
about to forgive. The user's lock keeps two collections apart and the advisory lock of the
receivable two write-offs; nothing keeps a collection from a write-off. -/

namespace Opinions.Ops

open Lib Lib.Result Lib.Rows Lib.Run Lib.Locks Model Store Trade Money Credit

/-! ### Sums per receivable -/

def movedBy (kind : ReceivableMovementKind) (movements : List ReceivableMovement) (id : Uuid) :
    Int :=
  ((movements.filter fun m => m.receivable = id ∧ m.kind = kind).map
    ReceivableMovement.amountMicro).sum

def takenOn (id : Uuid) (takings : List Taking) : Int :=
  (takings.map fun t => if t.receivable = id then t.amountMicro else 0).sum

def readOn (id : Uuid) (rows : List ReceivableOutstanding) : Int :=
  (rows.map fun row => if row.receivable.id = id then row.outstandingMicro else 0).sum

def debtOf (db : OpsDb) (id : Uuid) : Int :=
  (find Receivable.id id db.receivables).elim 0 Receivable.openedMicro

theorem settledBy_eq (movements : List ReceivableMovement) (id : Uuid) :
    settledBy movements id = movedBy .collected movements id + movedBy .writtenOff movements id := by
  rw [settledBy, movedBy, movedBy, sum_filter, sum_filter, sum_filter, ← List.sum_map_add]
  refine congrArg List.sum (List.map_congr_left fun m _ => ?_)
  by_cases hid : m.receivable = id
  · cases m.kind <;> simp [hid]
  · simp [hid]

theorem settledBy_append (xs ys : List ReceivableMovement) (id : Uuid) :
    settledBy (xs ++ ys) id = settledBy xs id + settledBy ys id := by
  rw [settledBy, List.filter_append, List.map_append, List.sum_append]
  rfl

theorem settledBy_takings (began : Instant) (takings : List Taking) (id : Uuid) :
    settledBy (takings.map (Taking.movement began)) id = takenOn id takings := by
  rw [settledBy, sum_filter, List.map_map, takenOn]
  refine congrArg List.sum (List.map_congr_left fun t _ => ?_)
  simp [Taking.movement]

theorem settledBy_forgiven (began : Instant) (confirmer : String) (y : Forgiven) (id : Uuid) :
    settledBy [y.movement began confirmer] id =
      if y.proposal.receivable = id then y.amountMicro else 0 := by
  rw [settledBy, sum_filter]
  simp [Forgiven.movement]

theorem takenOn_nonneg (id : Uuid) (takings : List Taking) : 0 ≤ takenOn id takings := by
  refine sum_nonneg fun t _ => ?_
  have hpositive := t.positive
  split_ifs <;> omega

theorem takenOn_append (id : Uuid) (xs ys : List Taking) :
    takenOn id (xs ++ ys) = takenOn id xs + takenOn id ys := by
  rw [takenOn, List.map_append, List.sum_append]
  rfl

variable {rows : List ReceivableOutstanding}

theorem readOn_nonneg (id : Uuid) (hopen : ∀ row ∈ rows, 0 < row.outstandingMicro) :
    0 ≤ readOn id rows := by
  refine sum_nonneg fun row hrow => ?_
  have hpositive := hopen row hrow
  split_ifs <;> omega

variable {id : Uuid} {takings : List Taking}

theorem exists_of_sum {α : Type} {p : α → Prop} [DecidablePred p] {amount : α → Int} {xs : List α}
    (h : (xs.map fun x => if p x then amount x else 0).sum ≠ 0) : ∃ x ∈ xs, p x := by
  by_contra hnone
  push Not at hnone
  refine h (List.sum_eq_zero fun y hy => ?_)
  obtain ⟨x, hx, rfl⟩ := List.mem_map.1 hy
  rw [if_neg (hnone x hx)]

variable {rs : List Receivable} {k : Collection} {w : World} {r : Receivable} {user : UserId}
  {actor : String} {x : WriteOffConfirming} {inputs : Inputs}

/-- What a collection reads on one receivable: what is left of it, if it is the user's and
anything is left. -/
theorem readOn_open (hids : (rs.map Receivable.id).Nodup) (movements : List ReceivableMovement)
    (user : UserId) (id : Uuid) :
    readOn id (openReceivablesForUser rs movements user) =
      (find Receivable.id id rs).elim 0 fun r =>
        if r.user = user ∧ settledBy movements r.id < r.openedMicro then
          r.openedMicro - settledBy movements r.id
        else 0 := by
  have hread : ∀ l : List Receivable,
      readOn id ((l.map (outstanding movements)).filter fun row => 0 < row.outstandingMicro) =
        (l.map fun r => if r.id = id then
          if settledBy movements r.id < r.openedMicro then
            r.openedMicro - settledBy movements r.id
          else 0
        else 0).sum := by
    intro l
    induction l with
    | nil => rfl
    | cons r l ih =>
      rw [List.map_cons, List.filter_cons, List.map_cons, List.sum_cons, ← ih]
      by_cases hopen : settledBy movements r.id < r.openedMicro
      · simp [readOn, outstanding, hopen]
      · simp [readOn, outstanding, hopen]
  rw [openReceivablesForUser, hread, ← sum_single hids,
    ((List.perm_insertionSort older (rs.filter fun r => r.user = user)).map _).sum_eq, sum_filter]
  refine congrArg List.sum (List.map_congr_left fun r _ => ?_)
  by_cases huser : r.user = user <;> by_cases hid : r.id = id <;> simp [huser, hid]

variable {collect : Int}

/-- A spread collection takes no more from a receivable than was read on it. -/
theorem takenOn_spread (hopen : ∀ row ∈ rows, 0 < row.outstandingMicro)
    (h : (spread collect rows).mapM k.taking = .ok takings) (id : Uuid) :
    takenOn id takings ≤ readOn id rows := by
  induction rows generalizing collect takings with
  | nil =>
    cases h
    exact le_rfl
  | cons row rows ih =>
    have hrows : ∀ x ∈ rows, 0 < x.outstandingMicro := fun x hx =>
      hopen x (List.mem_cons_of_mem row hx)
    rw [spread] at h
    split_ifs at h with hdone
    · cases h
      exact readOn_nonneg id hopen
    · simp only [List.mapM_cons, ok_iff] at h
      obtain ⟨t, ht, rest, hrest, rfl⟩ := h
      have hle := ih hrows hrest
      unfold Collection.taking at ht
      split_ifs at ht
      cases ht
      simp only [takenOn, readOn, List.map_cons, List.sum_cons] at hle ⊢
      have hmin := min_le_right collect row.outstandingMicro
      split_ifs <;> omega

theorem mem_of_mem_spread {share : ReceivableOutstanding × Int} (h : share ∈ spread collect rows) :
    share.1 ∈ rows := by
  induction rows generalizing collect with
  | nil => exact absurd h List.not_mem_nil
  | cons row rows ih =>
    rw [spread] at h
    split_ifs at h
    · exact absurd h List.not_mem_nil
    · rcases List.mem_cons.1 h with rfl | h
      · exact List.mem_cons_self
      · exact List.mem_cons_of_mem row (ih h)

theorem row_of_taking (h : (spread collect rows).mapM k.taking = .ok takings) :
    ∀ t ∈ takings, ∃ row ∈ rows, row.receivable.id = t.receivable := by
  intro t ht
  obtain ⟨share, hshare, htaking⟩ := (mem_of_mapM h).2 t ht
  unfold Collection.taking at htaking
  split_ifs at htaking
  cases htaking
  exact ⟨share.1, mem_of_mem_spread hshare, rfl⟩

/-! ### Claims -/

/-- The write-off a confirmation is about to make. -/
def WriteOffStage.forgiven? : WriteOffStage → Option Forgiven
  | .read y | .marketHeld y => some y
  | _ => none

variable {s : Session} {db : OpsDb} {f : Sessions} {i : Nat}

namespace Session

/-- What a transaction may still settle on a receivable. -/
def debtClaim : Session → Uuid → Int
  | .ingress c, id => takenOn id c.takings + c.collecting.elim 0 fun k => readOn id k.rows
  | .writeOffConfirming x, id =>
    x.stage.forgiven?.elim 0 fun y => if y.proposal.receivable = id then y.amountMicro else 0
  | _, _ => 0

/-- A collection that has read the receivable as open. -/
def collects (id : Uuid) : Session → Bool
  | .ingress c => c.takings.any (fun t => t.receivable = id) ||
      c.collecting.any fun k => k.rows.any fun row => row.receivable.id = id
  | _ => false

/-- A confirmation that has read the receivable as open. -/
def writesOff (id : Uuid) : Session → Bool
  | .writeOffConfirming x => x.stage.forgiven?.any fun y => y.proposal.receivable = id
  | _ => false

theorem debtClaim_nonneg (s : Session) (id : Uuid) : 0 ≤ s.debtClaim id := by
  cases s with
  | ingress c =>
    have htaken := takenOn_nonneg id c.takings
    cases hk : c.collecting with
    | none => simpa [debtClaim, hk] using htaken
    | some k =>
      have hread := readOn_nonneg id k.rowsOpen
      simp only [debtClaim, hk, Option.elim_some]
      omega
  | writeOffConfirming x =>
    cases hy : x.stage.forgiven? with
    | none => simp [debtClaim, hy]
    | some y =>
      have hpositive := y.positive
      simp only [debtClaim, hy, Option.elim_some]
      split_ifs <;> omega
  | writeOffProposing | remedialProposing | remedialConfirming => exact le_rfl

theorem reads_of_debtClaim (h : s.debtClaim id ≠ 0) :
    s.collects id = true ∨ s.writesOff id = true := by
  cases s with
  | ingress c =>
    left
    simp only [collects, Bool.or_eq_true, List.any_eq_true, decide_eq_true_eq]
    by_cases htaken : takenOn id c.takings = 0
    · right
      simp only [debtClaim, htaken, zero_add] at h
      cases hk : c.collecting with
      | none => simp [hk] at h
      | some =>
        rw [hk, Option.elim_some] at h
        obtain ⟨row, hrow, hid⟩ := exists_of_sum h
        simp only [Option.any_some, List.any_eq_true, decide_eq_true_eq]
        exact ⟨row, hrow, hid⟩
    · exact Or.inl (exists_of_sum htaken)
  | writeOffConfirming x =>
    right
    cases hy : x.stage.forgiven? with
    | none => simp [debtClaim, hy] at h
    | some =>
      simp only [debtClaim, hy, Option.elim_some, ne_eq, ite_eq_right_iff, not_forall] at h
      simpa [writesOff, hy] using h.1
  | writeOffProposing | remedialProposing | remedialConfirming => exact absurd rfl h

/-- The locks that go with what a transaction has read. -/
structure Held (db : OpsDb) (f : Sessions) (i : Nat) (s : Session) : Prop where
  users : ∀ id, s.collects id = true → ∃ r ∈ db.receivables, r.id = id ∧ f.Holds i (.user r.user)
  debts : ∀ id, s.writesOff id = true → f.Holds i (.key (writeOffKey id))
  named : ∀ x, s = .writeOffConfirming x → x.stage ≠ .begun →
    f.Holds i (.key (writeOffKey x.cmd.receivable))

theorem Held.mono {db' : OpsDb} {f' : Sessions} (h : Held db f i s)
    (hrows : db.receivables ⊆ db'.receivables) (hlocks : ∀ k, f.Holds i k → f'.Holds i k) :
    Held db' f' i s where
  users := by
    intro id hid
    obtain ⟨r, hr, heq, hlock⟩ := h.users id hid
    exact ⟨r, hrows hr, heq, hlocks _ hlock⟩
  debts := fun id hid => hlocks _ (h.debts id hid)
  named := fun x hx hstage => hlocks _ (h.named x hx hstage)

/-- A transaction that has read no receivable needs none of these locks. -/
theorem Held.idle (hcollects : ∀ id, s.collects id = false) (hwrites : ∀ id, s.writesOff id = false)
    (hstage : ∀ x, s = .writeOffConfirming x → x.stage = .begun) : Held db f i s where
  users := fun id hid => absurd hid (by simp [hcollects])
  debts := fun id hid => absurd hid (by simp [hwrites])
  named := fun x hx hne => absurd (hstage x hx) hne

end Session

/-! ### The invariant -/

/-- The locks are safe and go with what was read, and no debt is claimed beyond what was
opened or by two transactions. -/
structure Apart (w : World) : Prop where
  safe : Safe w.flight.locks
  held : ∀ i s, w.flight.session i = some s → s.Held w.db w.flight i
  sound : Budget.Sound (debtOf w.db) (settledBy w.db.movements) Session.debtClaim w.flight

variable {s' : Session}

namespace Apart

theorem put (h : Apart w) (hgrown : Flight.Grown w.flight f) (hheld : s.Held w.db f i)
    (htake : ∀ id, s.debtClaim id ≤ Budget.claimed Session.debtClaim w.flight i id ∨
      settledBy w.db.movements id + s.debtClaim id ≤ debtOf w.db id ∧
        ∀ j, j ≠ i → Budget.claimed Session.debtClaim w.flight j id = 0) :
    Apart { w with flight := f.put i s } where
  safe := hgrown.safe h.safe
  held := hgrown.forall_put (hheld.mono (List.Subset.refl _) fun _ => id) fun j t ht =>
    (h.held j t ht).mono (List.Subset.refl _) (hgrown.keeps j)
  sound := h.sound.put hgrown s.debtClaim_nonneg htake

theorem keep (h : Apart w) (hgrown : Flight.Grown w.flight f) (hs : w.flight.session i = some s)
    (hheld : s'.Held w.db f i) (hle : ∀ id, s'.debtClaim id ≤ s.debtClaim id) :
    Apart { w with flight := f.put i s' } := by
  refine h.put hgrown hheld fun id => Or.inl ?_
  rw [Budget.claimed_of_session hs]
  exact hle id

/-- The end of a transaction that settles no more than it had a claim on. -/
theorem finish (h : Apart w) (hrows : db.receivables = w.db.receivables)
    (hspent : ∀ id, settledBy db.movements id ≤
      settledBy w.db.movements id + Budget.claimed Session.debtClaim w.flight i id) :
    Apart { db := db, flight := w.flight.finish i } where
  safe := h.safe.release i
  held := by
    intro j t ht
    rw [Flight.session_finish, Option.ite_none_left_eq_some] at ht
    refine (h.held j t ht.2).mono ?_ fun k hk => Flight.holds_finish ht.1 hk
    rw [hrows]
    exact List.Subset.refl _
  sound := by
    have hcap : debtOf db = debtOf w.db := by
      funext id
      rw [debtOf, debtOf, hrows]
    rw [hcap]
    exact h.sound.finish hspent

/-- Nobody else has a claim on a debt whose user is locked and that no write-off has read. -/
theorem free_of_user (h : Apart w) (hr : r ∈ w.db.receivables)
    (hlock : w.flight.Holds i (.user r.user))
    (hunread : ∀ q ∈ w.flight.sessions, q.2.writesOff r.id = false) (j : Nat) (hne : j ≠ i) :
    Budget.claimed Session.debtClaim w.flight j r.id = 0 := by
  refine Budget.claimed_eq_zero fun t ht => not_not.1 fun hclaim => ?_
  rcases Session.reads_of_debtClaim hclaim with hcollects | hwrites
  · obtain ⟨r', hr', hid, hlock'⟩ := (h.held j t ht).users r.id hcollects
    have hfind := find_of_mem w.db.receivableIds hr'
    rw [hid, find_of_mem w.db.receivableIds hr, Option.some.injEq] at hfind
    rw [← hfind] at hlock'
    exact hne (h.safe.owner_eq hlock' hlock)
  · exact absurd (hunread _ (Flight.mem_sessions ht)) (by simp [hwrites])

/-- Nobody else has a claim on a debt whose advisory lock is held and that no collection
has read. -/
theorem free_of_key (h : Apart w) (hlock : w.flight.Holds i (.key (writeOffKey id)))
    (hunread : ∀ q ∈ w.flight.sessions, q.2.collects id = false) (j : Nat) (hne : j ≠ i) :
    Budget.claimed Session.debtClaim w.flight j id = 0 := by
  refine Budget.claimed_eq_zero fun t ht => not_not.1 fun hclaim => ?_
  rcases Session.reads_of_debtClaim hclaim with hcollects | hwrites
  · exact absurd (hunread _ (Flight.mem_sessions ht)) (by simp [hcollects])
  · exact hne (h.safe.owner_eq ((h.held j t ht).debts id hwrites) hlock)

end Apart

/-! ### Keeping apart -/

/-- No collection reads the debts of a user of which a write-off in flight has read one. A
write-off reads the receivable its command names, and no collection in flight has read it. -/
def keptApart (w : World) : Action → Bool
  | .readOpen _ user _ _ =>
    w.flight.sessions.all fun q =>
      (w.db.receivables.filter fun r => r.user = user).all fun r => !q.2.writesOff r.id
  | .advance i _ =>
    match w.flight.session i with
    | some (.writeOffConfirming x) =>
      match x.stage with
      | .counted p _ => decide (p.receivable = x.cmd.receivable) &&
          w.flight.sessions.all fun q => !q.2.collects p.receivable
      | _ => true
    | _ => true
  | _ => true

theorem mem_openReceivables {movements : List ReceivableMovement} {row : ReceivableOutstanding}
    (h : row ∈ openReceivablesForUser rs movements user) :
    row.receivable ∈ rs ∧ row.receivable.user = user := by
  obtain ⟨r, hr, rfl⟩ := List.mem_map.1 (List.mem_filter.1 h).1
  rwa [List.mem_insertionSort, List.mem_filter, decide_eq_true_eq] at hr

section Steps

variable {policy : OpsPolicy} {c : Ingress}

theorem ingress_collects :
    (Session.ingress c).collects id = true ↔ (∃ t ∈ c.takings, t.receivable = id) ∨
      ∃ k, c.collecting = some k ∧ ∃ row ∈ k.rows, row.receivable.id = id := by
  simp only [Session.collects, Bool.or_eq_true, List.any_eq_true, decide_eq_true_eq,
    Option.any_eq_true]

/-- An ingress transaction needs locks only for what it collects. -/
theorem held_ingress
    (h : ∀ id, (Session.ingress c).collects id = true →
      ∃ r ∈ db.receivables, r.id = id ∧ f.Holds i (.user r.user)) :
    (Session.ingress c).Held db f i where
  users := h
  debts := fun id hid => absurd hid (by simp [Session.writesOff])
  named := fun x hx => absurd hx (by simp)

variable {c' : Ingress}

theorem readOpen_apart (h : Apart w) {key : String} (hs : w.flight.session i = some (.ingress c))
    (hread : c.readOpen i w.db user key actor w.flight = .ok c')
    (happart : keptApart w (.readOpen i user key actor) = true) :
    Apart { w with flight := w.flight.put i (.ingress c') } := by
  obtain ⟨hlock, hidle, htakings, hrows⟩ := Ingress.readOpen_spec hread
  have hheld : (Session.ingress c').Held w.db w.flight i := by
    refine held_ingress fun id hid => ?_
    rcases ingress_collects.1 hid with ⟨t, ht, hid⟩ | ⟨k, hk, row, hrow, hid⟩
    · exact (h.held i _ hs).users id (ingress_collects.2 (Or.inl ⟨t, htakings ▸ ht, hid⟩))
    · obtain ⟨-, hk⟩ := hrows k hk
      obtain ⟨hmem, huser⟩ := mem_openReceivables (hk ▸ hrow)
      exact ⟨row.receivable, hmem, hid, huser ▸ hlock⟩
  refine h.put (.refl _) hheld fun id => ?_
  have hclaim : Budget.claimed Session.debtClaim w.flight i id = takenOn id c.takings := by
    rw [Budget.claimed_of_session hs]
    simp [Session.debtClaim, hidle]
  cases hk : c'.collecting with
  | none =>
    left
    rw [hclaim]
    simp [Session.debtClaim, hk, htakings]
  | some k =>
    have hnew : (Session.ingress c').debtClaim id = takenOn id c.takings +
        readOn id (openReceivablesForUser w.db.receivables (c.movements w.db) user) := by
      simp [Session.debtClaim, hk, htakings, (hrows k hk).2]
    rw [hclaim, hnew, readOn_open w.db.receivableIds]
    cases hfind : find Receivable.id id w.db.receivables with
    | none => exact Or.inl (by simp)
    | some r =>
      simp only [Option.elim_some]
      split_ifs with hopen
      · right
        have hid : r.id = id := key_of_find hfind
        have hmem : r ∈ w.db.receivables := mem_of_find hfind
        have hseen : settledBy (c.movements w.db) r.id =
            settledBy w.db.movements id + takenOn id c.takings := by
          rw [Ingress.movements, settledBy_append, settledBy_takings, hid]
        refine ⟨?_, fun j hne => ?_⟩
        · rw [hseen, debtOf, hfind, Option.elim_some]
          omega
        · -- the user is locked and no write-off has read the receivable
          simp only [keptApart, List.all_eq_true, List.mem_filter, decide_eq_true_eq,
            Bool.not_eq_true'] at happart
          rw [← hid]
          exact h.free_of_user hmem (hopen.1 ▸ hlock)
            (fun q hq => happart q hq r ⟨hmem, hopen.1⟩) j hne
      · exact Or.inl (by omega)

theorem readCash_apart (h : Apart w) (hs : w.flight.session i = some (.ingress c))
    (hread : c.readCash w.db = .ok c') :
    Apart { w with flight := w.flight.put i (.ingress c') } := by
  obtain ⟨htakings, hcollecting⟩ := Ingress.readCash_spec hread
  refine h.keep (.refl _) hs (held_ingress fun id hid => ?_) fun id => ?_
  · refine (h.held i _ hs).users id (ingress_collects.2 ?_)
    rcases ingress_collects.1 hid with ⟨t, ht, hid⟩ | ⟨k', hk', row, hrow, hid⟩
    · exact Or.inl ⟨t, htakings ▸ ht, hid⟩
    · obtain ⟨k, hk, -, hrows⟩ := hcollecting k' hk'
      exact Or.inr ⟨k, hk, row, hrows ▸ hrow, hid⟩
  · cases hk' : c'.collecting with
    | none =>
      have hnonneg := (Session.ingress { c with takings := [] }).debtClaim_nonneg id
      simp only [Session.debtClaim, hk', htakings, Option.elim_none] at hnonneg ⊢
      simp only [takenOn, List.map_nil, List.sum_nil, zero_add] at hnonneg
      omega
    | some k' =>
      obtain ⟨k, hk, -, hrows⟩ := hcollecting k' hk'
      simp [Session.debtClaim, hk', hk, htakings, hrows]

theorem takeCash_apart (h : Apart w) (hs : w.flight.session i = some (.ingress c))
    (htake : c.takeCash i w.db w.flight = .ok (f, c')) :
    Apart { w with flight := f.put i (.ingress c') } := by
  obtain ⟨hgrown, hdone, k, collect, takings, hk, -, hspread, htakings⟩ :=
    Ingress.takeCash_spec htake
  refine h.keep hgrown hs (held_ingress fun id hid => ?_) fun id => ?_
  · obtain ⟨r, hr, hid, hlock⟩ := (h.held i _ hs).users id (ingress_collects.2 (by
      rcases ingress_collects.1 hid with ⟨t, ht, hid⟩ | ⟨k', hk', -⟩
      · rw [htakings, List.mem_append] at ht
        rcases ht with ht | ht
        · exact Or.inl ⟨t, ht, hid⟩
        · obtain ⟨row, hrow, heq⟩ := row_of_taking hspread t ht
          exact Or.inr ⟨k, hk, row, hrow, heq.trans hid⟩
      · rw [hdone] at hk'
        exact absurd hk' (by simp)))
    exact ⟨r, hr, hid, hgrown.keeps i _ hlock⟩
  · have hle := takenOn_spread k.rowsOpen hspread id
    simp only [Session.debtClaim, hdone, hk, htakings, takenOn_append, Option.elim_none,
      Option.elim_some]
    omega

theorem post_apart (h : Apart w) {p : Posting} (hs : w.flight.session i = some (.ingress c))
    (hpost : c.post i w.db p w.flight = .ok (f, c')) :
    Apart { w with flight := f.put i (.ingress c') } := by
  obtain ⟨hgrown, -, rfl⟩ := Ingress.post_spec hpost
  refine h.keep hgrown hs (held_ingress fun id hid => ?_) fun id => le_rfl
  obtain ⟨r, hr, hid, hlock⟩ := (h.held i _ hs).users id hid
  exact ⟨r, hr, hid, hgrown.keeps i _ hlock⟩

/-- A write-off confirmation needs locks for what it names and for what it has read. -/
theorem held_confirming
    (hnamed : x.stage ≠ .begun → f.Holds i (.key (writeOffKey x.cmd.receivable)))
    (hread : ∀ y, x.stage.forgiven? = some y → f.Holds i (.key (writeOffKey y.proposal.receivable))) :
    (Session.writeOffConfirming x).Held db f i where
  users := fun id hid => absurd hid (by simp [Session.collects])
  debts := by
    intro id hid
    simp only [Session.writesOff, Option.any_eq_true, decide_eq_true_eq] at hid
    obtain ⟨y, hy, rfl⟩ := hid
    exact hread y hy
  named := by
    intro x' hx'
    obtain rfl := Session.writeOffConfirming.inj hx'
    exact hnamed

theorem afterScreen_forgiven (p : WriteOffProposal) (now : Instant) (verdict : Verdict) :
    (WriteOffConfirming.afterScreen p now verdict).forgiven? = none := by
  cases verdict <;> rfl

theorem confirming_apart (h : Apart w) {stage : WriteOffStage}
    (hs : w.flight.session i = some (.writeOffConfirming x))
    (hnext : WriteOffConfirming.Next policy i w.db inputs x w.flight f stage)
    (happart : keptApart w (.advance i inputs) = true) :
    Apart { w with flight := f.put i (.writeOffConfirming { x with stage := stage }) } := by
  have hgrown := hnext.grown
  have hheld := h.held i _ hs
  have hnamed : x.stage ≠ .begun → f.Holds i (.key (writeOffKey x.cmd.receivable)) := fun hne =>
    hgrown.keeps i _ (hheld.named x rfl hne)
  have hclaim : ∀ y, x.stage.forgiven? = some y →
      f.Holds i (.key (writeOffKey y.proposal.receivable)) := by
    intro y hy
    refine hgrown.keeps i _ (hheld.debts _ ?_)
    simp [Session.writesOff, hy]
  -- a statement before the read has no claim at all
  have hidle : stage.forgiven? = none → (stage ≠ .begun →
      f.Holds i (.key (writeOffKey x.cmd.receivable))) →
      Apart { w with flight := f.put i (.writeOffConfirming { x with stage := stage }) } := by
    intro hnone hlock
    refine h.keep hgrown hs (held_confirming hlock ?_) fun id => ?_
    · intro y hy
      cases hnone.symm.trans hy
    · have hnonneg := (Session.writeOffConfirming x).debtClaim_nonneg id
      simpa [Session.debtClaim, hnone] using hnonneg
  cases hnext with
  | guard _ hstage hf => exact hidle rfl fun _ => Flight.hold_holds hf
  | find _ _ hstage | count _ _ _ hstage => exact hidle rfl fun _ => hnamed (by simp [hstage])
  | screen p verdict hstage =>
    exact hidle (afterScreen_forgiven p _ verdict) fun _ => hnamed (by simp [hstage])
  | read p now row y hstage hrow hproposal hdebt =>
    have hlock := hnamed (by simp [hstage])
    simp only [keptApart, hs, hstage, Bool.and_eq_true, decide_eq_true_eq, List.all_eq_true,
      Bool.not_eq_true'] at happart
    obtain ⟨hsame, hunread⟩ := happart
    rw [← hsame] at hlock
    refine h.put hgrown (held_confirming (fun _ => hsame ▸ hlock) ?_) fun id => ?_
    · intro y' hy'
      cases hy'
      rwa [hproposal]
    · have hnew : (Session.writeOffConfirming { x with stage := .read y }).debtClaim id =
          if p.receivable = id then y.amountMicro else 0 := by
        rw [← hproposal]
        rfl
      rw [hnew]
      split_ifs with hid
      · right
        subst hid
        obtain ⟨r, hfind, rfl⟩ := Option.map_eq_some_iff.1 hrow
        have hle := y.ofDebt
        have hrid : r.id = p.receivable := key_of_find hfind
        refine ⟨?_, h.free_of_key hlock hunread⟩
        rw [debtOf, hfind, Option.elim_some]
        simp only [hdebt, outstanding, hrid] at hle
        omega
      · exact Or.inl (h.sound.nonneg i id)
  | market _ y hstage =>
    refine h.keep hgrown hs (held_confirming (fun _ => hnamed (by simp [hstage])) ?_) fun id => ?_
    · intro y' hy'
      cases hy'
      exact hclaim _ (by rw [hstage]; rfl)
    · simp [Session.debtClaim, hstage, WriteOffStage.forgiven?]

/-- A statement of a transaction that never reads a receivable's debt to settle it. -/
theorem bystander_apart (h : Apart w) (hgrown : Flight.Grown w.flight f)
    (hs : w.flight.session i = some s) (hcollects : ∀ id, s'.collects id = false)
    (hwrites : ∀ id, s'.writesOff id = false)
    (hstage : ∀ x, s' = .writeOffConfirming x → x.stage = .begun)
    (hzero : ∀ id, s'.debtClaim id = 0) : Apart { w with flight := f.put i s' } := by
  refine h.keep hgrown hs (Session.Held.idle hcollects hwrites hstage) fun id => ?_
  rw [hzero id]
  exact s.debtClaim_nonneg id

theorem advance_apart (h : Apart w) (hs : w.flight.session i = some s)
    (hadvance : s.advance policy i w.db inputs w.flight = .ok (f, s'))
    (happart : keptApart w (.advance i inputs) = true) : Apart { w with flight := f.put i s' } := by
  cases s with
  | ingress => simp [Session.advance] at hadvance
  | writeOffProposing =>
    simp only [Session.advance, ok_iff] at hadvance
    obtain ⟨⟨_, stage⟩, hstep, rfl, rfl⟩ := hadvance
    exact bystander_apart h (WriteOffProposing.advance_grown hstep) hs (fun _ => rfl)
      (fun _ => rfl) (by simp) fun _ => rfl
  | writeOffConfirming =>
    simp only [Session.advance, ok_iff] at hadvance
    obtain ⟨⟨_, stage⟩, hstep, rfl, rfl⟩ := hadvance
    exact confirming_apart h hs (WriteOffConfirming.advance_next hstep) happart
  | remedialProposing =>
    simp only [Session.advance, ok_iff] at hadvance
    obtain ⟨⟨_, stage⟩, hstep, rfl, rfl⟩ := hadvance
    exact bystander_apart h (RemedialProposing.advance_spec hstep).1 hs (fun _ => rfl)
      (fun _ => rfl) (by simp) fun _ => rfl
  | remedialConfirming =>
    simp only [Session.advance, ok_iff] at hadvance
    obtain ⟨⟨_, stage⟩, hstep, rfl, rfl⟩ := hadvance
    exact bystander_apart h (RemedialConfirming.advance_next hstep).grown hs (fun _ => rfl)
      (fun _ => rfl) (by simp) fun _ => rfl

theorem commit_apart (h : Apart w) (hs : w.flight.session i = some s)
    (hcommit : s.commit w.db = .ok db) : Apart { db := db, flight := w.flight.finish i } := by
  -- a commit that moves nothing settles nothing
  have hkept : db.movements = w.db.movements → db.receivables = w.db.receivables →
      Apart { db := db, flight := w.flight.finish i } := by
    intro hmovements hrows
    refine h.finish hrows fun id => ?_
    have hnonneg := h.sound.nonneg i id
    rw [hmovements]
    omega
  cases s with
  | ingress =>
    obtain ⟨hidle, hmovements, hrows, -⟩ := Ingress.commit_spec hcommit
    refine h.finish hrows fun id => ?_
    rw [Budget.claimed_of_session hs, hmovements, settledBy_append, settledBy_takings]
    simp [Session.debtClaim, hidle]
  | writeOffProposing =>
    obtain ⟨hmovements, hrows, -⟩ := WriteOffProposing.commit_spec hcommit
    exact hkept hmovements hrows
  | writeOffConfirming =>
    cases WriteOffConfirming.commit_ended hcommit with
    | kept hmovements hrows => exact hkept hmovements hrows
    | forgave y hstage hmovements hrows =>
      refine h.finish hrows fun id => ?_
      rw [Budget.claimed_of_session hs, hmovements, settledBy_append, settledBy_forgiven]
      simp [Session.debtClaim, hstage, WriteOffStage.forgiven?]
  | remedialProposing =>
    obtain ⟨hmovements, hrows, -⟩ := RemedialProposing.commit_spec hcommit
    exact hkept hmovements hrows
  | remedialConfirming =>
    cases RemedialConfirming.commit_ended hcommit with
    | kept hmovements hrows | saved _ _ _ _ hmovements hrows => exact hkept hmovements hrows

theorem openReceivable_apart (h : Apart w) (hopen : World.openReceivable w.db r actor = .ok db) :
    Apart { w with db := db } := by
  simp only [World.openReceivable, bind_eq_ok] at hopen
  obtain ⟨mid, hinsert, hmovement⟩ := hopen
  obtain ⟨hnew, hrows, hmovements, -⟩ := OpsDb.insertReceivable_spec hinsert
  obtain ⟨hmovements', hrows', -⟩ := OpsDb.insertReceivableMovement_spec hmovement
  have hreceivables : db.receivables = w.db.receivables ++ [r] := hrows'.trans hrows
  refine ⟨h.safe, fun j t ht => ?_, h.sound.widen (fun id => ?_) fun id => ?_⟩
  · refine (h.held j t ht).mono (fun x hx => ?_) fun _ => id
    rw [hreceivables]
    exact List.mem_append_left _ hx
  · have hpositive := r.positive
    rw [debtOf, debtOf, hreceivables, find_append]
    cases hfind : find Receivable.id id w.db.receivables with
    | some => simp
    | none =>
      rw [Option.none_or, find_cons]
      split_ifs
      · simpa using hpositive.le
      · simp
  · rw [hmovements', hmovements, settledBy_append]
    simp [settledBy]

theorem step_apart {w' : World} {a : Action} (h : Apart w) (happart : keptApart w a = true)
    (hstep : w.step policy a = .ok w') : Apart w' := by
  cases World.step_moved hstep with
  | start i began request s hnew hs =>
    have hzero : s.Held w.db w.flight i ∧ ∀ id, s.debtClaim id = 0 := by
      cases Request.session_begun hs with
      | writeOffConfirming =>
        exact ⟨held_confirming (by simp) (by rintro _ ⟨⟩), fun _ => rfl⟩
      | ingress | writeOffProposing | remedialProposing | remedialConfirming =>
        exact ⟨Session.Held.idle (fun _ => rfl) (fun _ => rfl) (by simp), fun _ => rfl⟩
    refine h.put (.refl _) hzero.1 fun id => Or.inl ?_
    rw [hzero.2 id]
    exact h.sound.nonneg i id
  | lockUser i user f hf =>
    have hgrown := Flight.hold_grown hf
    refine ⟨hgrown.safe h.safe, fun j t ht => ?_, h.sound.grown hgrown⟩
    rw [hgrown.session_eq] at ht
    exact (h.held j t ht).mono (List.Subset.refl _) (hgrown.keeps j)
  | post i p c c' f hs h' => exact post_apart h hs h'
  | readOpen i user key actor c c' hs h' => exact readOpen_apart h hs h' happart
  | readCash i c c' hs h' => exact readCash_apart h hs h'
  | takeCash i c c' f hs h' => exact takeCash_apart h hs h'
  | advance i inputs s s' f hs h' => exact advance_apart h hs h' happart
  | commit i s db hs h' => exact commit_apart h hs h'
  | abort i =>
    refine h.finish rfl fun id => ?_
    have hnonneg := h.sound.nonneg i id
    omega
  | openReceivable r actor db h' => exact openReceivable_apart h h'

end Steps

/-! ### Every run -/

/-- Nothing is collected or written off beyond what was opened. -/
def OpsDb.Settleable (db : OpsDb) : Prop :=
  ∀ r ∈ db.receivables, 0 ≤ (outstanding db.movements r).outstandingMicro

theorem apart_quiet (h : db.Settleable) : Apart (World.quiet db) where
  safe := safe_nil
  held := by simp [World.quiet]
  sound := by
    refine Budget.Sound.empty fun id => ?_
    cases hfind : find Receivable.id id db.receivables with
    | some r =>
      have hle := h r (mem_of_find hfind)
      simp only [outstanding, key_of_find hfind] at hle
      rw [debtOf, World.quiet, hfind, Option.elim_some]
      dsimp only
      omega
    | none =>
      -- a movement is of a receivable there is
      have hnone : settledBy db.movements id = 0 := by
        rw [settledBy, List.filter_eq_nil_iff.2, List.map_nil, List.sum_nil]
        intro m hm
        obtain ⟨r, hr, hid⟩ := List.mem_map.1 (db.movementsOf m hm)
        have hne : m.receivable ≠ id := hid ▸ find_eq_none.1 hfind r hr
        simp [hne]
      rw [debtOf, World.quiet, hfind]
      exact hnone.le

/-- In every run in which collections and write-offs of one debt keep apart, what was
collected and written off stays within what was opened. -/
theorem debts_settled_once {policy : OpsPolicy} {db : OpsDb} (hdb : db.Settleable)
    {actions : List Action}
    (happart : Along (World.step policy) (fun w a => keptApart w a = true) (.quiet db) actions) :
    ∀ r ∈ (run (World.step policy) (.quiet db) actions).db.receivables,
      movedBy .collected (run (World.step policy) (.quiet db) actions).db.movements r.id +
        movedBy .writtenOff (run (World.step policy) (.quiet db) actions).db.movements r.id ≤
        r.openedMicro ∧
      0 ≤ (outstanding (run (World.step policy) (.quiet db) actions).db.movements
        r).outstandingMicro := by
  have hrun : Apart (run (World.step policy) (.quiet db) actions) :=
    run_preserves_along (fun _ _ _ h happart hstep => step_apart h happart hstep)
      (apart_quiet hdb) happart
  intro r hr
  have hle := hrun.sound.spent_le r.id
  rw [debtOf, find_of_mem (OpsDb.receivableIds _) hr, Option.elim_some] at hle
  rw [← settledBy_eq]
  refine ⟨hle, ?_⟩
  dsimp only [outstanding]
  omega

/-! ### A debt settled twice -/

def sampleDebtor : UserId := ⟨2#128⟩

def sampleReceivable : Receivable :=
  { id := 7#128, market := ⟨1#128⟩, user := sampleDebtor, originReversalTxn := "unwind:1"
    openedMicro := 100, createdAt := 0, positive := by decide }

theorem no_movements : ∀ m ∈ ([] : List ReceivableMovement),
    m.receivable ∈ ([] : List Receivable).map Receivable.id := by
  simp

def sampleOpsDb : OpsDb :=
  { ledger := Ledger.empty, markets := [⟨1#128⟩], handles := [(sampleDebtor, "debtor")]
    receivables := [], movements := [], writeOffs := [], remedials := [], realizations := []
    receivableIds := List.nodup_nil, remedialIds := List.nodup_nil
    movementsOf := no_movements }

/-- A statement 100 seconds in, past the dual-control delay. -/
def sampleInputs : Inputs := { now := 100000000000, freshId := 9#128 }

def sampleWriteOff : WriteOffCmd :=
  { receivable := 7#128, reason := "uncollectable", idempotencyKey := "w" }

/-- A debt of 100, a debtor with 100 in cash, and a proposal to write the debt off. -/
def sampleProposed : List Action :=
  [.openReceivable sampleReceivable "a",
   .start 0 0 .ingress,
   .post 0 { kind := .deposit, key := "d"
             entries := [⟨cash .external, -100⟩, ⟨cash (.user sampleDebtor), 100⟩] },
   .commit 0,
   .start 1 0 (.proposeWriteOff (.admin "a" .finance) sampleWriteOff),
   .advance 1 { sampleInputs with now := 0 }, .advance 1 { sampleInputs with now := 0 },
   .advance 1 { sampleInputs with now := 0 }, .commit 1]

/-- The confirmation, up to its reading of the debt. -/
def sampleConfirmRead : List Action :=
  [.start 2 sampleInputs.now (.confirmWriteOff (.admin "b" .superadmin) sampleWriteOff),
   .advance 2 sampleInputs, .advance 2 sampleInputs, .advance 2 sampleInputs,
   .advance 2 sampleInputs, .advance 2 sampleInputs]

def sampleConfirmEnd : List Action := [.advance 2 sampleInputs, .commit 2]

/-- A trade of the debtor collects. -/
def sampleCollect : List Action :=
  [.start 3 sampleInputs.now .ingress, .lockUser 3 sampleDebtor,
   .readOpen 3 sampleDebtor "t" "machine:convert:t", .readCash 3, .takeCash 3, .commit 3]

def sampleOutstanding (actions : List Action) : Int :=
  (outstanding (run (World.step .default) (.quiet sampleOpsDb) actions).db.movements
    sampleReceivable).outstandingMicro

/-- One after the other, the collection finds the debt written off. -/
theorem written_off_then_nothing_collected :
    sampleReceivable ∈ (run (World.step .default) (.quiet sampleOpsDb)
      (sampleProposed ++ sampleConfirmRead ++ sampleConfirmEnd ++ sampleCollect)).db.receivables ∧
    0 ≤ sampleOutstanding
      (sampleProposed ++ sampleConfirmRead ++ sampleConfirmEnd ++ sampleCollect) := by
  have hrun : sampleReceivable ∈ (run (World.step .default) (.quiet sampleOpsDb)
        (sampleProposed ++ sampleConfirmRead ++ sampleConfirmEnd ++
          sampleCollect)).db.receivables ∧
      Along (World.step .default) (fun w a => keptApart w a = true) (.quiet sampleOpsDb)
        (sampleProposed ++ sampleConfirmRead ++ sampleConfirmEnd ++ sampleCollect) := by
    decide +kernel
  have hdb : sampleOpsDb.Settleable := by simp [OpsDb.Settleable, sampleOpsDb]
  refine ⟨hrun.1, ?_⟩
  rw [sampleOutstanding]
  exact (debts_settled_once hdb hrun.2 _ hrun.1).2

/-- The collection reads and commits between the confirmation's reading and its end: both
settle the same 100. -/
theorem debt_settled_twice :
    sampleOutstanding (sampleProposed ++ sampleConfirmRead ++ sampleCollect ++ sampleConfirmEnd) =
      -100 := by
  decide +kernel

end Opinions.Ops
