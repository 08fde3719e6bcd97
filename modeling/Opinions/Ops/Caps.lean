import Opinions.Lib.Budget
import Opinions.Ops.World

/-! The caps on discretionary losses: remedial credits per market and per day, write-offs
per day. A cap is a budget of which the confirmed amounts are spent. The totals are read
without a lock, so the caps hold in the runs in which no two confirmations have checked
against the same cap at once. -/

namespace Opinions.Ops

open Lib Lib.Checked Lib.Result Lib.Rows Lib.Run Model Store Trade Money

/-- What is capped: the credits of a market, the credits of a day, the write-offs of a day. -/
inductive Cap
  | market (market : MarketId)
  | remedialDay (day : Instant)
  | writeOffDay (day : Instant)
  deriving DecidableEq

def OpsPolicy.capOf (policy : OpsPolicy) : Cap → Int
  | .market _ => policy.remedialMarketCapMicro
  | .remedialDay _ => policy.remedialDailyCapMicro
  | .writeOffDay _ => policy.writeoffDailyCapMicro

/-- The caps are below the largest integer, where saturation would make a check vacuous. -/
def OpsPolicy.Bounded (policy : OpsPolicy) : Prop := ∀ cap, policy.capOf cap < 9223372036854775807

/-- The caps as the operator reads them: confirmed credits by market and by the day they
were settled, write-offs by the day they were recorded. -/
structure WithinCaps (policy : OpsPolicy) (db : OpsDb) : Prop where
  market : ∀ m, ((db.remedials.filter fun p => p.market = m ∧ p.status = .confirmed).map
    RemedialCreditProposal.amountMicro).sum ≤ policy.remedialMarketCapMicro
  remedialDay : ∀ day, ((db.remedials.filter fun p =>
    p.status = .confirmed ∧ p.settledAt.any fun t => dayStart t = day).map
    RemedialCreditProposal.amountMicro).sum ≤ policy.remedialDailyCapMicro
  writeOffDay : ∀ day, ((db.movements.filter fun m =>
    m.kind = .writtenOff ∧ dayStart m.createdAt = day).map
    ReceivableMovement.amountMicro).sum ≤ policy.writeoffDailyCapMicro

/-! ### Totals -/

def OpsDb.totalOf (db : OpsDb) : Cap → Int
  | .market m => ((db.remedials.filter fun p => p.market = m ∧ p.status = .confirmed).map
      RemedialCreditProposal.amountMicro).sum
  | .remedialDay day => ((db.remedials.filter fun p =>
      p.status = .confirmed ∧ p.settledAt.any fun t => dayStart t = day).map
      RemedialCreditProposal.amountMicro).sum
  | .writeOffDay day => ((db.movements.filter fun m =>
      m.kind = .writtenOff ∧ dayStart m.createdAt = day).map ReceivableMovement.amountMicro).sum

variable {db : OpsDb} {policy : OpsPolicy} {w : World} {i : Nat}

theorem withinCaps_iff : WithinCaps policy db ↔ ∀ cap, db.totalOf cap ≤ policy.capOf cap := by
  constructor
  · rintro ⟨hm, hr, hw⟩ (m | day | day)
    · exact hm m
    · exact hr day
    · exact hw day
  · intro h
    exact ⟨fun m => h (.market m), fun day => h (.remedialDay day), fun day => h (.writeOffDay day)⟩

theorem dayStart_le (t : Instant) : dayStart t ≤ t :=
  Int.sub_le_self t (Int.emod_nonneg t (by decide))

variable {total : Int}

theorem bigint_eq_ok {x : Int} (h : MoneyDb.bigint x = .ok total) : total = x := by
  rw [MoneyDb.bigint, okOr_eq_ok, tryI64_eq_some] at h
  exact h.1.symm

theorem total_of_market {m : MarketId} (h : db.remedialCreditedForMarket m = .ok total) :
    db.totalOf (.market m) ≤ total :=
  (bigint_eq_ok h).ge

/-- A sum over fewer rows of nonnegative amounts. -/
theorem sum_filter_le {ν : Type} {p q : ν → Bool} {amount : ν → Int} {rows : List ν}
    (hpq : ∀ r, p r = true → q r = true) (hamount : ∀ r, 0 ≤ amount r) :
    ((rows.filter p).map amount).sum ≤ ((rows.filter q).map amount).sum := by
  rw [sum_filter, sum_filter]
  refine List.sum_le_sum fun r _ => ?_
  have hr := hamount r
  by_cases hp : p r = true
  · simp [hp, hpq r hp]
  · by_cases hq : q r = true <;> simp [hp, hq, hr]

variable {began day : Instant} {s' : Session}

/-- The total since midnight covers the day. -/
theorem total_of_day (h : db.remedialCreditedSince day = .ok total) :
    db.totalOf (.remedialDay day) ≤ total := by
  rw [bigint_eq_ok h]
  refine sum_filter_le (fun p hp => ?_) fun p => p.positive.le
  simp only [decide_eq_true_eq, Option.any_eq_true] at hp ⊢
  obtain ⟨hconfirmed, t, ht, rfl⟩ := hp
  exact ⟨hconfirmed, t, ht, dayStart_le t⟩

theorem total_of_writeOffs (h : db.writtenOffSince day = .ok total) :
    db.totalOf (.writeOffDay day) ≤ total := by
  rw [bigint_eq_ok h]
  refine sum_filter_le (fun m hm => ?_) fun m => m.positive.le
  simp only [decide_eq_true_eq] at hm ⊢
  obtain ⟨hkind, rfl⟩ := hm
  exact ⟨hkind, dayStart_le m.createdAt⟩

/-! ### Claims -/

/-- The proposal a confirmation works on. -/
def RemedialStage.proposal? : RemedialStage → Option RemedialCreditProposal
  | .found p | .expiring p | .due p _ | .unlinked p _ | .marketCounted p _ | .dayCounted p
  | .granted p => some p
  | .begun | .guarded | .replayed => none

def RemedialConfirming.capClaim (x : RemedialConfirming) (cap : Cap) : Int :=
  match x.stage with
  | .marketCounted p _ => if cap = .market p.market then p.amountMicro else 0
  | .dayCounted p | .granted p =>
    if cap = .market p.market ∨ cap = .remedialDay (dayStart x.began) then p.amountMicro else 0
  | _ => 0

def WriteOffConfirming.capClaim (x : WriteOffConfirming) (cap : Cap) : Int :=
  match x.stage with
  | .counted p _ => if cap = .writeOffDay (dayStart x.began) then p.amountMicro else 0
  | .read y | .marketHeld y => if cap = .writeOffDay (dayStart x.began) then y.amountMicro else 0
  | _ => 0

namespace Session

/-- What a confirmation has checked against a cap and not committed yet. -/
def capClaim : Session → Cap → Int
  | .remedialConfirming x, cap => x.capClaim cap
  | .writeOffConfirming x, cap => x.capClaim cap
  | _, _ => 0

theorem capClaim_nonneg (s : Session) (cap : Cap) : 0 ≤ s.capClaim cap := by
  cases s with
  | ingress | writeOffProposing | remedialProposing => exact le_rfl
  | writeOffConfirming =>
    dsimp only [capClaim, WriteOffConfirming.capClaim]
    split
    · next p _ _ => split_ifs <;> simp [p.positive.le]
    · next y _ => split_ifs <;> simp [y.positive.le]
    · next y _ => split_ifs <;> simp [y.positive.le]
    · exact le_rfl
  | remedialConfirming =>
    dsimp only [capClaim, RemedialConfirming.capClaim]
    split
    · next p _ _ => split_ifs <;> simp [p.positive.le]
    · next p _ => split_ifs <;> simp [p.positive.le]
    · next p _ => split_ifs <;> simp [p.positive.le]
    · exact le_rfl

/-- The proposal in hand is one of the table, but for its status; a new one is pending. -/
def Recorded (db : OpsDb) : Session → Prop
  | .remedialConfirming x => ∀ p, x.stage.proposal? = some p →
      ∃ row ∈ db.remedials, row.id = p.id ∧ row.market = p.market ∧ row.amountMicro = p.amountMicro
  | .remedialProposing x => ∀ p, x.stage = .prepared p → p.status = .pending
  | _ => True

end Session

/-- Every proposal is still there, but for its status. -/
def Carried (db db' : OpsDb) : Prop :=
  ∀ row ∈ db.remedials, ∃ row' ∈ db'.remedials,
    row'.id = row.id ∧ row'.market = row.market ∧ row'.amountMicro = row.amountMicro

variable {db' : OpsDb} {s : Session}

theorem Session.Recorded.carried (h : s.Recorded db) (hcarried : Carried db db') :
    s.Recorded db' := by
  cases s with
  | remedialConfirming =>
    intro p hp
    obtain ⟨row, hrow, hid, hmarket, hamount⟩ := h p hp
    obtain ⟨row', hrow', hid', hmarket', hamount'⟩ := hcarried row hrow
    exact ⟨row', hrow', hid'.trans hid, hmarket'.trans hmarket, hamount'.trans hamount⟩
  | remedialProposing => exact h
  | ingress | writeOffProposing | writeOffConfirming => trivial

theorem carried_of_eq (h : db'.remedials = db.remedials) : Carried db db' :=
  fun row hrow => ⟨row, h ▸ hrow, rfl, rfl, rfl⟩

variable {q : RemedialCreditProposal}

theorem carried_of_update (h : db'.remedials =
      update RemedialCreditProposal.id q.id (OpsDb.savedRemedial began q) db.remedials) :
    Carried db db' := by
  intro row hrow
  refine ⟨_, h ▸ mem_update.2 ⟨row, hrow, rfl⟩, ?_⟩
  split_ifs <;> exact ⟨rfl, rfl, rfl⟩

/-! ### The invariant -/

structure Capped (policy : OpsPolicy) (w : World) : Prop where
  recorded : ∀ i s, w.flight.session i = some s → s.Recorded w.db
  sound : Budget.Sound policy.capOf w.db.totalOf Session.capClaim w.flight

variable {f : Sessions}

namespace Capped

theorem put (h : Capped policy w) (hgrown : Flight.Grown w.flight f) (hrecorded : s.Recorded w.db)
    (htake : ∀ cap, s.capClaim cap ≤ Budget.claimed Session.capClaim w.flight i cap ∨
      w.db.totalOf cap + s.capClaim cap ≤ policy.capOf cap ∧
        ∀ j, j ≠ i → Budget.claimed Session.capClaim w.flight j cap = 0) :
    Capped policy { w with flight := f.put i s } where
  recorded := hgrown.forall_put hrecorded h.recorded
  sound := h.sound.put hgrown s.capClaim_nonneg htake

theorem keep (h : Capped policy w) (hgrown : Flight.Grown w.flight f)
    (hs : w.flight.session i = some s) (hrecorded : s'.Recorded w.db)
    (hle : ∀ cap, s'.capClaim cap ≤ s.capClaim cap) :
    Capped policy { w with flight := f.put i s' } := by
  refine h.put hgrown hrecorded fun cap => Or.inl ?_
  rw [Budget.claimed_of_session hs]
  exact hle cap

theorem idle (h : Capped policy w) (hgrown : Flight.Grown w.flight f)
    (hs : w.flight.session i = some s) (hrecorded : s'.Recorded w.db)
    (hzero : ∀ cap, s'.capClaim cap = 0) : Capped policy { w with flight := f.put i s' } := by
  refine h.keep hgrown hs hrecorded fun cap => ?_
  rw [hzero cap]
  exact Session.capClaim_nonneg _ cap

theorem finish (h : Capped policy w) (hcarried : Carried w.db db) (hspent : ∀ cap, db.totalOf cap ≤
      w.db.totalOf cap + Budget.claimed Session.capClaim w.flight i cap) :
    Capped policy { db := db, flight := w.flight.finish i } where
  recorded := fun j t ht => (h.recorded j t (Flight.session_of_finish ht).2).carried hcarried
  sound := h.sound.finish hspent

end Capped

/-! ### Without contention -/

/-- No other confirmation in flight has checked against the cap. -/
def uncontested (w : World) (i : Nat) (cap : Cap) : Bool :=
  w.flight.sessions.all fun q => q.1 = i || q.2.capClaim cap = 0

/-- A confirmation checks a total only while no other in flight has checked against the same
cap, and checks the day its transaction began in. -/
def uncontended (w : World) : Action → Bool
  | .advance i _ =>
    match w.flight.session i with
    | some (.remedialConfirming x) =>
      match x.stage with
      | .unlinked p _ => uncontested w i (.market p.market)
      | .marketCounted _ now => decide (dayStart now = dayStart x.began) &&
          uncontested w i (.remedialDay (dayStart x.began))
      | _ => true
    | some (.writeOffConfirming x) =>
      match x.stage with
      | .due _ now => decide (dayStart now = dayStart x.began) &&
          uncontested w i (.writeOffDay (dayStart x.began))
      | _ => true
    | _ => true
  | _ => true

theorem claimed_of_uncontested {cap : Cap} (h : uncontested w i cap = true) (j : Nat) (hne : j ≠ i) :
    Budget.claimed Session.capClaim w.flight j cap = 0 := by
  refine Budget.claimed_eq_zero fun t ht => ?_
  simp only [uncontested, List.all_eq_true, Bool.or_eq_true, decide_eq_true_eq] at h
  exact (h _ (Flight.mem_sessions ht)).resolve_left hne

section Steps

/-- A checked amount fits under the cap, if the total read covers what is spent. -/
theorem charge_le (hbounded : policy.Bounded) {cap : Cap} {amount : Int}
    (htotal : db.totalOf cap ≤ total) (hcap : saturatingAdd total amount ≤ policy.capOf cap) :
    db.totalOf cap + amount ≤ policy.capOf cap :=
  (add_le_add_left htotal _).trans (le_of_saturatingAdd (hbounded cap) hcap)

theorem afterScreen_proposal {p : RemedialCreditProposal} {now : Instant} {verdict : Verdict}
    (h : (RemedialConfirming.afterScreen p now verdict).proposal? = some q) : q = p := by
  cases verdict with
  | replay => exact absurd h (by simp [RemedialConfirming.afterScreen, RemedialStage.proposal?])
  | expire | due => exact (Option.some.inj h).symm

variable {inputs : Inputs}

theorem remedial_capped (hbounded : policy.Bounded) (h : Capped policy w) {x : RemedialConfirming}
    {stage : RemedialStage} (hs : w.flight.session i = some (.remedialConfirming x))
    (hnext : RemedialConfirming.Next policy i w.db inputs x w.flight f stage)
    (hcond : uncontended w (.advance i inputs) = true) :
    Capped policy { w with flight := f.put i (.remedialConfirming { x with stage := stage }) } := by
  have hgrown := hnext.grown
  -- the proposal in hand does not change once it is found
  have hrecorded : (∀ q, stage.proposal? = some q → x.stage.proposal? = some q) →
      (Session.remedialConfirming { x with stage := stage }).Recorded w.db :=
    fun hsame q hq => h.recorded i _ hs q (hsame q hq)
  cases hnext with
  | guard => exact h.idle hgrown hs (hrecorded (by rintro _ ⟨⟩)) fun _ => rfl
  | find _ p hstage hp =>
    refine h.idle hgrown hs (fun q hq => ?_) fun _ => rfl
    cases hq
    exact ⟨p, mem_of_find hp, rfl, rfl, rfl⟩
  | screen p verdict hstage =>
    refine h.idle hgrown hs (hrecorded fun q hq => ?_) fun cap => by cases verdict <;> rfl
    rw [afterScreen_proposal hq, hstage]
    rfl
  | unlink p now hstage =>
    refine h.idle hgrown hs (hrecorded fun q hq => ?_) fun _ => rfl
    rwa [hstage]
  | countMarket p now total hstage htotal hcap =>
    refine h.put hgrown (hrecorded fun q hq => by rw [hstage]; exact hq) fun cap => ?_
    simp only [uncontended, hs, hstage] at hcond
    dsimp only [Session.capClaim, RemedialConfirming.capClaim]
    split_ifs with heq
    · subst heq
      exact Or.inr ⟨charge_le hbounded (total_of_market htotal) hcap,
        claimed_of_uncontested hcond⟩
    · exact Or.inl (h.sound.nonneg i cap)
  | countDay p now total hstage htotal hcap =>
    refine h.put hgrown (hrecorded fun q hq => by rw [hstage]; exact hq) fun cap => ?_
    simp only [uncontended, hs, hstage, Bool.and_eq_true, decide_eq_true_eq] at hcond
    obtain ⟨hday, hfree⟩ := hcond
    rw [Budget.claimed_of_session hs]
    dsimp only [Session.capClaim, RemedialConfirming.capClaim]
    simp only [hstage]
    by_cases heq : cap = .remedialDay (dayStart x.began)
    · subst heq
      rw [hday] at htotal
      rw [if_pos (Or.inr rfl)]
      exact Or.inr ⟨charge_le hbounded (total_of_day htotal) hcap, claimed_of_uncontested hfree⟩
    · left
      simp [heq]
  | grant _ p hstage =>
    refine h.keep hgrown hs (hrecorded fun q hq => by rw [hstage]; exact hq) fun cap => ?_
    simp [Session.capClaim, RemedialConfirming.capClaim, hstage]

theorem writeOff_capped (hbounded : policy.Bounded) (h : Capped policy w) {x : WriteOffConfirming}
    {stage : WriteOffStage} (hs : w.flight.session i = some (.writeOffConfirming x))
    (hnext : WriteOffConfirming.Next policy i w.db inputs x w.flight f stage)
    (hcond : uncontended w (.advance i inputs) = true) :
    Capped policy { w with flight := f.put i (.writeOffConfirming { x with stage := stage }) } := by
  have hgrown := hnext.grown
  cases hnext with
  | guard | find => exact h.idle hgrown hs trivial fun _ => rfl
  | screen p verdict =>
    exact h.idle hgrown hs trivial fun cap => by cases verdict <;> rfl
  | count p now total hstage htotal hcap =>
    refine h.put hgrown trivial fun cap => ?_
    simp only [uncontended, hs, hstage, Bool.and_eq_true, decide_eq_true_eq] at hcond
    obtain ⟨hday, hfree⟩ := hcond
    dsimp only [Session.capClaim, WriteOffConfirming.capClaim]
    split_ifs with heq
    · subst heq
      rw [hday] at htotal
      exact Or.inr ⟨charge_le hbounded (total_of_writeOffs htotal) hcap,
        claimed_of_uncontested hfree⟩
    · exact Or.inl (h.sound.nonneg i cap)
  | read p now row y hstage hrow hproposal =>
    refine h.keep hgrown hs trivial fun cap => ?_
    have hle := y.ofProposal
    rw [hproposal] at hle
    dsimp only [Session.capClaim, WriteOffConfirming.capClaim]
    simp only [hstage]
    split_ifs
    · exact hle
    · exact le_rfl
  | market _ y hstage =>
    refine h.keep hgrown hs trivial fun cap => ?_
    simp [Session.capClaim, WriteOffConfirming.capClaim, hstage]

theorem advance_capped (hbounded : policy.Bounded) (h : Capped policy w)
    (hs : w.flight.session i = some s)
    (hadvance : s.advance policy i w.db inputs w.flight = .ok (f, s'))
    (hcond : uncontended w (.advance i inputs) = true) :
    Capped policy { w with flight := f.put i s' } := by
  cases s with
  | ingress => simp [Session.advance] at hadvance
  | writeOffProposing =>
    simp only [Session.advance, ok_iff] at hadvance
    obtain ⟨⟨_, stage⟩, hstep, rfl, rfl⟩ := hadvance
    exact h.keep (WriteOffProposing.advance_grown hstep) hs trivial fun _ => le_rfl
  | writeOffConfirming =>
    simp only [Session.advance, ok_iff] at hadvance
    obtain ⟨⟨_, stage⟩, hstep, rfl, rfl⟩ := hadvance
    exact writeOff_capped hbounded h hs (WriteOffConfirming.advance_next hstep) hcond
  | remedialProposing =>
    simp only [Session.advance, ok_iff] at hadvance
    obtain ⟨⟨_, stage⟩, hstep, rfl, rfl⟩ := hadvance
    obtain ⟨hgrown, hpending⟩ := RemedialProposing.advance_spec hstep
    exact h.keep hgrown hs hpending fun _ => le_rfl
  | remedialConfirming =>
    simp only [Session.advance, ok_iff] at hadvance
    obtain ⟨⟨_, stage⟩, hstep, rfl, rfl⟩ := hadvance
    exact remedial_capped hbounded h hs (RemedialConfirming.advance_next hstep) hcond

/-! ### Commits -/

/-- What some movements count for. -/
def forgivenBy (movements : List ReceivableMovement) : Cap → Int
  | .writeOffDay day => ((movements.filter fun m =>
      m.kind = .writtenOff ∧ dayStart m.createdAt = day).map ReceivableMovement.amountMicro).sum
  | _ => 0

theorem totalOf_append {ms : List ReceivableMovement} (hremedials : db'.remedials = db.remedials)
    (hmovements : db'.movements = db.movements ++ ms) (cap : Cap) :
    db'.totalOf cap = db.totalOf cap + forgivenBy ms cap := by
  cases cap with
  | market | remedialDay => simp [OpsDb.totalOf, hremedials, forgivenBy]
  | writeOffDay => simp [OpsDb.totalOf, hmovements, forgivenBy, List.filter_append]

theorem totalOf_eq (hremedials : db'.remedials = db.remedials)
    (hmovements : db'.movements = db.movements) (cap : Cap) : db'.totalOf cap = db.totalOf cap := by
  cases cap <;> simp [OpsDb.totalOf, hremedials, hmovements]

theorem forgivenBy_takings (began : Instant) (takings : List Taking) (cap : Cap) :
    forgivenBy (takings.map (Taking.movement began)) cap = 0 := by
  cases cap with
  | market | remedialDay => rfl
  | writeOffDay =>
    rw [forgivenBy, List.filter_eq_nil_iff.2, List.map_nil, List.sum_nil]
    intro m hm
    obtain ⟨t, -, rfl⟩ := List.mem_map.1 hm
    simp [Taking.movement]

theorem forgivenBy_forgiven (began : Instant) (confirmer : String) (y : Forgiven) (cap : Cap) :
    forgivenBy [y.movement began confirmer] cap =
      if cap = .writeOffDay (dayStart began) then y.amountMicro else 0 := by
  cases cap with
  | market | remedialDay => simp [forgivenBy]
  | writeOffDay day =>
    by_cases hday : dayStart began = day
    · simp [forgivenBy, Forgiven.movement, hday]
    · simp [forgivenBy, Forgiven.movement, hday, Ne.symm hday]

/-- Confirming a proposal adds its amount to the totals of its market and of the day; any
other status adds nothing. -/
theorem totalOf_saved {row : RemedialCreditProposal}
    (hfind : find RemedialCreditProposal.id q.id db.remedials = some row)
    (hmovements : db'.movements = db.movements) (hremedials : db'.remedials =
      update RemedialCreditProposal.id q.id (OpsDb.savedRemedial began q) db.remedials) (cap : Cap) :
    db'.totalOf cap ≤ db.totalOf cap +
      if q.status = .confirmed ∧ (cap = .market row.market ∨ cap = .remedialDay (dayStart began))
      then row.amountMicro else 0 := by
  have hpositive := row.positive
  cases cap with
  | market m =>
    simp only [OpsDb.totalOf, hremedials, sum_filter]
    rw [sum_update db.remedialIds hfind]
    by_cases hconfirmed : q.status = .confirmed
    · by_cases hm : row.market = m
      · simp [OpsDb.savedRemedial, hconfirmed, hm]
        split_ifs <;> omega
      · simp [OpsDb.savedRemedial, hconfirmed, hm, Ne.symm hm]
    · simp [OpsDb.savedRemedial, hconfirmed]
      split_ifs <;> omega
  | remedialDay day =>
    simp only [OpsDb.totalOf, hremedials, sum_filter]
    rw [sum_update db.remedialIds hfind]
    by_cases hconfirmed : q.status = .confirmed
    · by_cases hday : dayStart began = day
      · simp [OpsDb.savedRemedial, hconfirmed, hday]
        split_ifs <;> omega
      · simp [OpsDb.savedRemedial, hconfirmed, hday, Ne.symm hday]
        split_ifs <;> omega
    · simp [OpsDb.savedRemedial, hconfirmed]
      split_ifs <;> omega
  | writeOffDay => simp [OpsDb.totalOf, hmovements]

theorem commit_capped (h : Capped policy w) (hs : w.flight.session i = some s)
    (hcommit : s.commit w.db = .ok db) :
    Capped policy { db := db, flight := w.flight.finish i } := by
  have hnonneg := h.sound.nonneg i
  -- a commit that touches neither table
  have hkept : db.movements = w.db.movements → db.remedials = w.db.remedials →
      Capped policy { db := db, flight := w.flight.finish i } := by
    intro hmovements hremedials
    refine h.finish (carried_of_eq hremedials) fun cap => ?_
    rw [totalOf_eq hremedials hmovements]
    exact le_add_of_nonneg_right (hnonneg cap)
  cases s with
  | ingress =>
    obtain ⟨-, hmovements, -, hremedials⟩ := Ingress.commit_spec hcommit
    refine h.finish (carried_of_eq hremedials) fun cap => ?_
    rw [totalOf_append hremedials hmovements, forgivenBy_takings, add_zero]
    exact le_add_of_nonneg_right (hnonneg cap)
  | writeOffProposing =>
    obtain ⟨hmovements, -, hremedials⟩ := WriteOffProposing.commit_spec hcommit
    exact hkept hmovements hremedials
  | writeOffConfirming =>
    cases WriteOffConfirming.commit_ended hcommit with
    | kept hmovements _ hremedials => exact hkept hmovements hremedials
    | forgave y hstage hmovements _ hremedials =>
      refine h.finish (carried_of_eq hremedials) fun cap => ?_
      rw [totalOf_append hremedials hmovements, forgivenBy_forgiven, Budget.claimed_of_session hs]
      simp [Session.capClaim, WriteOffConfirming.capClaim, hstage]
  | remedialProposing =>
    obtain ⟨hmovements, -, hremedials | ⟨p, hstage, hremedials⟩⟩ :=
      RemedialProposing.commit_spec hcommit
    · exact hkept hmovements hremedials
    · have hpending : p.status = .pending := h.recorded i _ hs p hstage
      refine h.finish (fun row hrow => ⟨row, ?_, rfl, rfl, rfl⟩) fun cap => ?_
      · rw [hremedials]
        exact List.mem_append_left _ hrow
      · have htotal : db.totalOf cap = w.db.totalOf cap := by
          cases cap <;> simp [OpsDb.totalOf, hremedials, hmovements, List.filter_append, hpending]
        rw [htotal]
        exact le_add_of_nonneg_right (hnonneg cap)
  | remedialConfirming x =>
    cases RemedialConfirming.commit_ended hcommit with
    | kept hmovements _ hremedials => exact hkept hmovements hremedials
    | saved p q hid hstage hmovements _ hremedials =>
      have hp : x.stage.proposal? = some p := by
        rcases hstage with hstage | ⟨hstage, -⟩ <;> rw [hstage] <;> rfl
      obtain ⟨row, hrow, hrowId, hmarket, hamount⟩ := h.recorded i _ hs p hp
      have hfind : find RemedialCreditProposal.id q.id w.db.remedials = some row := by
        rw [hid, ← hrowId]
        exact find_of_mem w.db.remedialIds hrow
      refine h.finish (carried_of_update hremedials) fun cap => ?_
      refine (totalOf_saved hfind hmovements hremedials cap).trans (add_le_add_right ?_ _)
      rw [Budget.claimed_of_session hs]
      rcases hstage with hstage | ⟨-, hother⟩
      · have hpositive := p.positive
        simp only [Session.capClaim, RemedialConfirming.capClaim, hstage, hmarket, hamount]
        split_ifs with hleft hright hright
        · exact le_rfl
        · exact absurd hleft.2 hright
        · omega
        · exact le_rfl
      · rw [if_neg fun hconfirmed => hother hconfirmed.1]
        exact Session.capClaim_nonneg _ cap

theorem openReceivable_capped (h : Capped policy w) {r : Receivable} {actor : String}
    (hopen : World.openReceivable w.db r actor = .ok db) : Capped policy { w with db := db } := by
  simp only [World.openReceivable, bind_eq_ok] at hopen
  obtain ⟨mid, hinsert, hmovement⟩ := hopen
  obtain ⟨-, -, hmovements, hremedials⟩ := OpsDb.insertReceivable_spec hinsert
  obtain ⟨hmovements', -, hremedials'⟩ := OpsDb.insertReceivableMovement_spec hmovement
  have hsame : db.remedials = w.db.remedials := hremedials'.trans hremedials
  refine ⟨fun j t ht => (h.recorded j t ht).carried (carried_of_eq hsame),
    h.sound.widen (fun _ => le_rfl) fun cap => ?_⟩
  rw [hmovements] at hmovements'
  rw [totalOf_append hsame hmovements']
  cases cap <;> simp [forgivenBy]

theorem step_capped {w' : World} {a : Action} (hbounded : policy.Bounded) (h : Capped policy w)
    (hcond : uncontended w a = true) (hstep : w.step policy a = .ok w') : Capped policy w' := by
  have hingress : ∀ {i : Nat} {c c' : Ingress} {f : Sessions}, Flight.Grown w.flight f →
      w.flight.session i = some (.ingress c) →
      Capped policy { w with flight := f.put i (.ingress c') } := by
    intro i c c' f hgrown hs
    exact h.keep hgrown hs trivial fun _ => le_rfl
  cases World.step_moved hstep with
  | start i began request s hnew hs =>
    have hzero : s.Recorded w.db ∧ ∀ cap, s.capClaim cap = 0 := by
      cases Request.session_begun hs with
      | ingress | writeOffProposing | writeOffConfirming => exact ⟨trivial, fun _ => rfl⟩
      | remedialProposing | remedialConfirming => exact ⟨(by rintro _ ⟨⟩), fun _ => rfl⟩
    refine h.put (.refl _) hzero.1 fun cap => Or.inl ?_
    rw [hzero.2 cap]
    exact h.sound.nonneg i cap
  | lockUser i user f hf =>
    have hgrown := Flight.hold_grown hf
    refine ⟨fun j t ht => ?_, h.sound.grown hgrown⟩
    rw [hgrown.session_eq] at ht
    exact h.recorded j t ht
  | post i p c c' f hs h' => exact hingress (Ingress.post_spec h').1 hs
  | readOpen _ _ _ _ _ _ hs | readCash _ _ _ hs => exact hingress (.refl _) hs
  | takeCash i c c' f hs h' => exact hingress (Ingress.takeCash_spec h').1 hs
  | advance i inputs s s' f hs h' => exact advance_capped hbounded h hs h' hcond
  | commit i s db hs h' => exact commit_capped h hs h'
  | abort i =>
    exact h.finish (carried_of_eq rfl) fun cap => le_add_of_nonneg_right (h.sound.nonneg i cap)
  | openReceivable r actor db h' => exact openReceivable_capped h h'

end Steps

/-! ### Every run -/

/-- In every run in which no two confirmations check against one cap at once, and each
checks the day it began in, the caps hold. -/
theorem caps_hold {policy : OpsPolicy} (hbounded : policy.Bounded) {db : OpsDb}
    (hdb : WithinCaps policy db) {actions : List Action}
    (hcond : Along (World.step policy) (fun w a => uncontended w a = true) (.quiet db) actions) :
    WithinCaps policy (run (World.step policy) (.quiet db) actions).db := by
  have hquiet : Capped policy (.quiet db) :=
    ⟨by simp [World.quiet], Budget.Sound.empty (withinCaps_iff.1 hdb)⟩
  have hrun : Capped policy (run (World.step policy) (.quiet db) actions) :=
    run_preserves_along (fun _ _ _ h hcond hstep => step_capped hbounded h hcond hstep)
      hquiet hcond
  exact withinCaps_iff.2 hrun.sound.spent_le

/-! ### A cap exceeded -/

/-- A fresh database with one user and one market. -/
def sampleFresh : OpsDb :=
  { ledger := Ledger.empty, markets := [⟨1#128⟩], handles := [(⟨2#128⟩, "u")], receivables := []
    movements := [], writeOffs := [], remedials := [], realizations := []
    receivableIds := List.nodup_nil, remedialIds := List.nodup_nil
    movementsOf := List.forall_mem_nil _ }

/-- A credit of 300 out of a cap of 500 for the market. -/
def sampleCredit (key : String) : RemedialCreditCmd :=
  { market := ⟨1#128⟩, user := ⟨2#128⟩, amountMicro := 300000000, reason := "outage"
    idempotencyKey := key }

def samplePropose (i : Nat) (key : String) (id : Uuid) : List Action :=
  .start i 0 (.proposeRemedial (.admin "a" .finance) (sampleCredit key)) ::
    List.replicate 5 (.advance i { now := 0, freshId := id }) ++ [.commit i]

/-- A confirmation past its checks, 100 seconds in. -/
def sampleCheck (i : Nat) (key : String) : List Action :=
  .start i 100000000000 (.confirmRemedial (.admin "b" .superadmin) (sampleCredit key)) ::
    List.replicate 6 (.advance i { now := 100000000000, freshId := 0#128 })

def sampleGrant (i : Nat) : List Action :=
  [.advance i { now := 100000000000, freshId := 0#128 }, .commit i]

/-- Two proposals for the market, and a house that can pay for them. -/
def sampleTwoProposed : List Action :=
  [.start 0 0 .ingress,
   .post 0 { kind := .deposit, key := "d"
             entries := [⟨cash .external, -1000000000⟩, ⟨cash .house, 1000000000⟩] },
   .commit 0] ++ samplePropose 1 "p" 8#128 ++ samplePropose 2 "q" 9#128

theorem withinCaps_sampleFresh : WithinCaps .default sampleFresh := by
  refine ⟨fun _ => ?_, fun _ => ?_, fun _ => ?_⟩ <;> simp [sampleFresh, OpsPolicy.default]

/-- One confirmation after the other. -/
def sampleInTurn : List Action :=
  sampleTwoProposed ++ sampleCheck 3 "p" ++ sampleGrant 3 ++ sampleCheck 4 "q" ++ sampleGrant 4

/-- In turn, the second confirmation sees the first and is refused. -/
theorem second_credit_refused :
    (run (World.step .default) (.quiet sampleFresh) sampleInTurn).db.remedialCreditedForMarket
        ⟨1#128⟩ = .ok 300000000 ∧
      WithinCaps .default (run (World.step .default) (.quiet sampleFresh) sampleInTurn).db := by
  have hrun : (run (World.step .default) (.quiet sampleFresh)
        sampleInTurn).db.remedialCreditedForMarket ⟨1#128⟩ = .ok 300000000 ∧
      Along (World.step .default) (fun w a => uncontended w a = true) (.quiet sampleFresh)
        sampleInTurn := by
    decide +kernel
  have hbounded : OpsPolicy.default.Bounded := by
    rintro (m | day | day) <;> simp [OpsPolicy.capOf, OpsPolicy.default]
  exact ⟨hrun.1, caps_hold hbounded withinCaps_sampleFresh hrun.2⟩

/-- Both check before either commits: 600 is granted under a cap of 500. -/
theorem market_cap_exceeded :
    ((run (World.step .default) (.quiet sampleFresh)
      (sampleTwoProposed ++ sampleCheck 3 "p" ++ sampleCheck 4 "q" ++ sampleGrant 3 ++
        sampleGrant 4)).db.remedialCreditedForMarket ⟨1#128⟩ = .ok 600000000) ∧
      OpsPolicy.default.remedialMarketCapMicro = 500000000 := by
  decide +kernel

end Opinions.Ops
