import Opinions.Money.Condemned

/-! Non-landing evidence and the chain it is about. An observation reports a height and
whether one signature was found up to it; the code is handed the report without the
signature. The chain finalizes a transaction while its block hash is valid, and evidence
gathered for any attempt is handed in at any later time. -/

namespace Opinions.Money.NonLanding

open Lib.Result Lib.Rows Lib.Run Domain.Ledger Model Store Trade

/-- The finalized chain: its height, and the signatures it holds with their blocks. -/
structure Chain where
  height : Int
  landed : List (String × Int)

namespace Chain

def hasLanded (c : Chain) (signature : String) : Bool := c.landed.any fun l => l.1 = signature

def landedBy (c : Chain) (signature : String) (height : Int) : Bool :=
  c.landed.any fun l => l.1 = signature && l.2 ≤ height

/-- The attempt's transaction has landed or can still land. -/
def mayLand (c : Chain) (a : OutboundAttemptRow) : Bool :=
  c.hasLanded a.signature || c.height < a.lastValidBlockHeight

end Chain

/-- An observation with the signature it was gathered for. -/
structure Evidence where
  signature : String
  observation : QuorumObservation

/-- The endpoint has finalized the height it reports, and it reports the signature as found
exactly when it has landed by then. A pruned history reports nothing. -/
def Evidence.truthful (c : Chain) (e : Evidence) : Bool :=
  e.observation.pruned || e.observation.finalizedHeight.all fun height =>
    height ≤ c.height &&
      e.observation.signaturePresent.all fun present => present == c.landedBy e.signature height

inductive Action
  /-- Any command that is not a proof. -/
  | command (c : Command)
  | replaceExpired (facts : SendFacts) (evidence : List Evidence) (id : WithdrawalId)
      (user : UserId)
  | proveNonLanding (facts : MoneyFacts) (identity : RailIdentity) (evidence : List Evidence)
      (id : WithdrawalId) (user : UserId)
  /-- The chain is final up to a height, with these transactions in the new blocks. -/
  | finalize (height : Int) (landings : List (String × Int))

namespace Action

def evidence : Action → List Evidence
  | replaceExpired _ evidence _ _ => evidence
  | proveNonLanding _ _ evidence _ _ => evidence
  | _ => []

/-- The withdrawal the evidence is used against. -/
def subject : Action → Option WithdrawalId
  | replaceExpired _ _ id _ => some id
  | proveNonLanding _ _ _ id _ => some id
  | _ => none

end Action

inductive Halt
  | noSuchBlock
  | refused (e : AppError)

structure World where
  db : MoneyDb
  chain : Chain

/-- The transaction is one of ours and lands while its block hash is valid. -/
def canLand (o : Outbound) (c : Chain) (height : Int) (l : String × Int) : Bool :=
  c.height < l.2 && l.2 ≤ height &&
    o.attempts.any fun a => a.signature = l.1 && l.2 ≤ a.lastValidBlockHeight

namespace World

def start (height : Int) : World := { db := .empty, chain := { height := height, landed := [] } }

def step (d : Digests) (w : World) (a : Action) : Except Halt World :=
  match a with
  | .finalize height landings => do
    refuse (height < w.chain.height ∨
      (landings.all (canLand w.db.outbound w.chain height)) = false) .noSuchBlock
    pure { w with chain := { height := height, landed := w.chain.landed ++ landings } }
  | .command c => do
    refuse ((proofOf c).isSome = true) (.refused .illegalTransition)
    let db ← (w.db.step d c).mapError .refused
    pure { w with db := db }
  | .replaceExpired facts evidence id user => do
    let db ← (w.db.step d
      (.replaceExpired facts (evidence.map Evidence.observation) id user)).mapError .refused
    pure { w with db := db }
  | .proveNonLanding facts identity evidence id user => do
    let db ← (w.db.step d
      (.proveNonLanding facts identity (evidence.map Evidence.observation) id user)).mapError
      .refused
    pure { w with db := db }

end World

/-- Every observation handed in is true of the signature it was gathered for. -/
def truthful (w : World) (a : Action) : Bool := a.evidence.all (·.truthful w.chain)

/-- The observations were gathered for the attempt they are used against. -/
def aboutLive (w : World) (a : Action) : Bool :=
  (a.subject.bind w.db.liveSend).all fun live =>
    a.evidence.all fun e => e.signature = live.signature

inductive Moved (d : Digests) (w : World) (a : Action) : World → Prop
  | finalized (height : Int) (landings : List (String × Int))
      (action : a = .finalize height landings) (grows : w.chain.height ≤ height)
      (landed : ∀ l ∈ landings, canLand w.db.outbound w.chain height l = true) :
      Moved d w a { w with chain := { height := height, landed := w.chain.landed ++ landings } }
  | commanded (c : Command) (db : MoneyDb) (stepped : w.db.step d c = .ok db)
      (proof : ∀ id observations endpoints, proofOf c = some (id, observations, endpoints) →
        a.subject = some id ∧ observations = a.evidence.map Evidence.observation) :
      Moved d w a { w with db := db }

variable {d : Digests} {w w' : World} {db : MoneyDb} {id : WithdrawalId} {c : Command}

theorem World.step_moved {a : Action} (h : w.step d a = .ok w') : Moved d w a w' := by
  cases a with
  | finalize height landings =>
    simp only [step, not_or, not_lt, Bool.not_eq_false, List.all_eq_true, ok_iff] at h
    obtain ⟨_, ⟨hgrows, hlanded⟩, rfl⟩ := h
    exact .finalized height landings rfl hgrows hlanded
  | command c =>
    simp only [step, ok_iff] at h
    obtain ⟨_, hproof, db, hdb, rfl⟩ := h
    refine .commanded c db hdb fun id observations endpoints hsome => ?_
    exact absurd (hsome ▸ rfl) hproof
  | replaceExpired | proveNonLanding =>
    simp only [step, ok_iff] at h
    obtain ⟨db, hdb, rfl⟩ := h
    refine .commanded _ db hdb fun _ _ _ hsome => ?_
    cases hsome
    exact ⟨rfl, rfl⟩

variable {endpoints : List String} {live : OutboundAttemptRow}

/-- A definitive verdict rests on an endpoint past the block height that looked and did not
find the signature. -/
theorem exists_vote {lastValid : Int} {observations : List QuorumObservation}
    (h : safeNonLandingVerdict lastValid observations endpoints = .definitiveFailed) :
    ∃ o ∈ observations, o.pruned = false ∧ o.signaturePresent = some false ∧
      ∃ height, o.finalizedHeight = some height ∧ lastValid < height := by
  simp only [safeNonLandingVerdict] at h
  split_ifs at h
  simp only [nonLandingVerdict] at h
  split_ifs at h with hsilent hvotes
  simp only [List.any_eq_true, not_exists, not_and, Bool.or_eq_true, not_or, Bool.not_eq_true]
    at hsilent
  have hpos : 0 < observations.countP fun o =>
      lastValid < o.finalizedHeight.getD 0 && !o.signaturePresent.getD true := by omega
  obtain ⟨o, ho, hvote⟩ := List.countP_pos_iff.1 hpos
  obtain ⟨⟨hpruned, hheight⟩, hpresent⟩ := hsilent o ho
  simp only [Bool.and_eq_true, decide_eq_true_eq, Bool.not_eq_true'] at hvote
  refine ⟨o, ho, hpruned, ?_, ?_⟩
  · cases hp : o.signaturePresent with
    | none => simp [hp] at hpresent
    | some =>
      rw [hp] at hvote
      exact congrArg some hvote.2
  · cases hh : o.finalizedHeight with
    | none => simp [hh] at hheight
    | some height =>
      rw [hh] at hvote
      exact ⟨height, rfl, hvote.1⟩

/-- What landed is one of our attempts, in a block it was valid for. -/
def LandedValid (o : Outbound) (c : Chain) : Prop :=
  ∀ l ∈ c.landed, ∃ a ∈ o.attempts, a.signature = l.1 ∧ l.2 ≤ a.lastValidBlockHeight

theorem not_mayLand_iff {c : Chain} {a : OutboundAttemptRow} :
    c.mayLand a = false ↔ (∀ l ∈ c.landed, l.1 ≠ a.signature) ∧ a.lastValidBlockHeight ≤ c.height := by
  simp [Chain.mayLand, Chain.hasLanded]

/-- True observations of an attempt's own signature condemn it only when it is dead. -/
theorem not_mayLand_of_verdict {o : Outbound} {c : Chain} {a : OutboundAttemptRow}
    {evidence : List Evidence} (hv : o.Valid) (ha : a ∈ o.attempts) (hlanded : LandedValid o c)
    (htrue : ∀ e ∈ evidence, e.truthful c = true)
    (habout : ∀ e ∈ evidence, e.signature = a.signature)
    (hverdict : safeNonLandingVerdict a.lastValidBlockHeight (evidence.map Evidence.observation)
      endpoints = .definitiveFailed) : c.mayLand a = false := by
  obtain ⟨_, ho, hpruned, habsent, height, hheight, hpast⟩ := exists_vote hverdict
  obtain ⟨e, he, rfl⟩ := List.mem_map.1 ho
  have htruth := htrue e he
  simp only [Evidence.truthful, hpruned, hheight, habsent, habout e he, Bool.false_or,
    Option.all_some, Bool.and_eq_true, decide_eq_true_eq, beq_iff_eq] at htruth
  obtain ⟨hfinal, hmissing⟩ := htruth
  refine not_mayLand_iff.2 ⟨fun l hl hsig => ?_, by omega⟩
  -- it would have landed in a block it was valid for, which the endpoint had finalized
  obtain ⟨b, hb, hbsig, hbvalid⟩ := hlanded l hl
  obtain rfl := hv.eq_of_signature hb ha (hbsig.trans hsig)
  have hfound : c.landedBy b.signature height = true := by
    refine List.any_eq_true.2 ⟨l, hl, ?_⟩
    simp only [hsig, decide_true, Bool.true_and, decide_eq_true_eq]
    omega
  rw [hfound] at hmissing
  cases hmissing

structure Sound (w : World) : Prop where
  conserved : Conserved w.db
  tracked : Tracked w.db
  landed : LandedValid w.db.outbound w.chain
  dead : ∀ a ∈ w.db.outbound.attempts, a.landingState = .definitiveFailed →
    w.db.outbound.RefundOwned a ∨ w.chain.mayLand a = false

theorem sound_start (height : Int) : Sound (.start height) where
  conserved := conserved_empty
  tracked := tracked_empty
  landed := List.forall_mem_nil _
  dead := List.forall_mem_nil _

theorem liveSend_spec {a : OutboundAttemptRow} (h : db.liveSend id = some a) :
    ∃ p, db.outbound.paymentBySubject .withdrawal id.uuid = some p ∧
      a ∈ db.outbound.attemptRows p.id ∧ a.landingState.isLive = true := by
  simp only [MoneyDb.liveSend, Option.bind_eq_bind, Option.bind_eq_some_iff] at h
  obtain ⟨p, hp, h⟩ := h
  cases hlive : db.outbound.liveAttempt p.id with
  | error =>
    rw [hlive] at h
    cases h
  | ok found =>
    rw [hlive] at h
    obtain rfl : found = some a := h
    exact ⟨p, hp, liveAttempt_mem hlive⟩

theorem mayLand_same {c : Chain} {a b : OutboundAttemptRow} (h : a.Same b) :
    c.mayLand b = c.mayLand a := by
  rw [Chain.mayLand, Chain.mayLand, h.signature, h.lastValidBlockHeight]

section Steps

variable {a : Action}

/-- Under the condition a command condemns only dead attempts. -/
theorem condemned_dead {x : OutboundAttemptRow} (h : Sound w) (htrue : truthful w a = true)
    (habout : aboutLive w a = true)
    (hproof : ∀ id observations endpoints, proofOf c = some (id, observations, endpoints) →
      a.subject = some id ∧ observations = a.evidence.map Evidence.observation)
    (hcondemns : Condemns w.db c x) : w.chain.mayLand x = false := by
  obtain ⟨id, observations, endpoints, hof, hlive, hverdict⟩ := hcondemns
  obtain ⟨hsubject, rfl⟩ := hproof id observations endpoints hof
  obtain ⟨p, -, hmem, -⟩ := liveSend_spec hlive
  simp only [aboutLive, hsubject, Option.bind_some, hlive, Option.all_some, List.all_eq_true,
    decide_eq_true_eq] at habout
  exact not_mayLand_of_verdict h.tracked.valid (Outbound.mem_attemptRows.1 hmem).1 h.landed
    (List.all_eq_true.1 htrue) habout hverdict

theorem Sound.commanded (h : Sound w) (hstep : w.db.step d c = .ok db)
    (hdead : ∀ x, Condemns w.db c x → w.chain.mayLand x = false) : Sound { w with db := db } := by
  obtain ⟨condemned, hkept, hcondemned⟩ := step_kept h.tracked.valid hstep
  have heffect := MoneyDb.step_effect hstep
  refine ⟨h.conserved.effect heffect, h.tracked.effect h.conserved.ids heffect, ?_, ?_⟩
  · intro l hl
    obtain ⟨b, hb, hsig, hvalid⟩ := h.landed l hl
    obtain ⟨b', hb', hsame⟩ := hkept.attempts b hb
    exact ⟨b', hb', hsame.signature.trans hsig, hsame.lastValidBlockHeight ▸ hvalid⟩
  · intro b hb hfailed
    rcases hkept.failed b hb hfailed with howned | hb | ⟨x, hx, hsame⟩
    · exact Or.inl howned
    · exact (h.dead b hb hfailed).imp_left hkept.refundOwned
    · exact Or.inr ((mayLand_same hsame).trans (hdead x (hcondemned x hx)))

/-- New blocks revive nothing. -/
theorem Sound.finalized {height : Int} {landings : List (String × Int)} (h : Sound w)
    (hgrows : w.chain.height ≤ height)
    (hlanded : ∀ l ∈ landings, canLand w.db.outbound w.chain height l = true) :
    Sound { w with chain := { height := height, landed := w.chain.landed ++ landings } } := by
  have hours (l : String × Int) (hl : l ∈ landings) : w.chain.height < l.2 ∧
      ∃ b ∈ w.db.outbound.attempts, b.signature = l.1 ∧ l.2 ≤ b.lastValidBlockHeight := by
    have hcan := hlanded l hl
    simp only [canLand, Bool.and_eq_true, decide_eq_true_eq, List.any_eq_true] at hcan
    obtain ⟨⟨hnew, -⟩, b, hb, hsig, hvalid⟩ := hcan
    exact ⟨hnew, b, hb, hsig, hvalid⟩
  refine ⟨h.conserved, h.tracked, fun l hl => ?_, fun b hb hfailed => ?_⟩
  · rcases List.mem_append.1 hl with hl | hl
    · exact h.landed l hl
    · exact (hours l hl).2
  · refine (h.dead b hb hfailed).imp_right fun hdead => ?_
    obtain ⟨hmissing, hexpired⟩ := not_mayLand_iff.1 hdead
    refine not_mayLand_iff.2 ⟨fun l hl hsig => ?_, hexpired.trans hgrows⟩
    rcases List.mem_append.1 hl with hl | hl
    · exact hmissing l hl hsig
    · obtain ⟨hnew, b', hb', hsig', hvalid⟩ := hours l hl
      obtain rfl := h.tracked.valid.eq_of_signature hb' hb (hsig'.trans hsig)
      omega

theorem step_sound (h : Sound w) (htrue : truthful w a = true) (habout : aboutLive w a = true)
    (hstep : w.step d a = .ok w') : Sound w' := by
  cases World.step_moved hstep with
  | finalized height landings action grows landed =>
    exact h.finalized grows landed
  | commanded c db stepped proof =>
    exact h.commanded stepped fun x => condemned_dead h htrue habout proof

end Steps

/-- The attempt is still the last one of its withdrawal and not declared failed, and the
withdrawal is not released on a proof. -/
structure StillOpen (db : MoneyDb) (id : WithdrawalId) (live : OutboundAttemptRow) : Prop where
  last : ∃ a, (db.outbound.sends id.uuid).getLast? = some a ∧ live.Same a ∧
    a.landingState ≠ .definitiveFailed
  unreleased : ∀ r, db.withdrawal id = some r → r.combo ≠ .w15

section Tables

variable {p : OutboundPaymentRow} {a : OutboundAttemptRow} (ht : Tracked db)
  (hp : db.outbound.paymentBySubject .withdrawal id.uuid = some p)
include ht hp

/-- A withdrawal's payment is no refund. -/
theorem not_refundOwned (ha : a ∈ db.outbound.attemptRows p.id) : ¬db.outbound.RefundOwned a := by
  rintro ⟨q, hq, hsubject, hid⟩
  have hpq : q.id = p.id := hid.symm.trans (Outbound.mem_attemptRows.1 ha).2
  obtain rfl := List.inj_on_of_nodup_map ht.valid.payment_ids hq (mem_of_find hp) hpq
  have hkey : Outbound.subjectKey q = (.withdrawal, id.uuid) := key_of_find hp
  have hwithdrawal : q.subject = .withdrawal := congrArg Prod.fst hkey
  rw [hwithdrawal] at hsubject
  cases hsubject

/-- An attempt that has not failed is the last one, and its row is not released. -/
theorem open_of_not_failed (ha : a ∈ db.outbound.attemptRows p.id)
    (hstate : a.landingState ≠ .definitiveFailed) :
    (db.outbound.sends id.uuid).getLast? = some a ∧
      ∀ r, db.withdrawal id = some r → r.combo ≠ .w15 := by
  have hsends := Outbound.sends_of_payment hp
  have hlast {state : LandingState} (h : LastAt state (db.outbound.sends id.uuid)) :
      (db.outbound.sends id.uuid).getLast? = some a ∧ a.landingState = state := by
    obtain ⟨old, last, hrows, hlast, hfailed⟩ := h.last
    rw [← hsends, hrows, mem_concat] at ha
    rcases ha with ha | rfl
    · exact absurd (hfailed a ha) hstate
    · exact ⟨by rw [hrows, List.getLast?_concat], hlast⟩
  have hkey : Outbound.subjectKey p = (.withdrawal, id.uuid) := key_of_find hp
  obtain ⟨hsubject, hid⟩ := Prod.mk.inj hkey
  obtain ⟨r, hr, hrid⟩ := ht.owned p (mem_of_find hp) hsubject
  have hshape := ht.shape r hr
  rw [hrid, hid] at hshape
  refine ⟨?_, fun r hfound hcombo => ?_⟩
  · unfold Shape at hshape
    split at hshape
    · rw [← hsends, hshape] at ha
      cases ha
    · exact (hlast hshape).1
  · obtain rfl : r.id = id := key_of_find hfound
    have hcarried : carried r.combo.send = some .definitiveFailed := by
      rw [hcombo]
      rfl
    exact hstate (hlast (ht.lastAt hfound hcarried)).2

end Tables

section Steps

variable {a : Action}

/-- A command that condemns only what is dead leaves every other payment open. -/
theorem Sound.stillOpen_commanded (h : Sound w) (hstep : w.db.step d c = .ok db)
    (hdead : ∀ x, Condemns w.db c x → w.chain.mayLand x = false)
    (hlive : w.db.liveSend id = some live) (hmay : w.chain.mayLand live = true) :
    StillOpen db id live := by
  have hsound := h.commanded hstep hdead
  obtain ⟨condemned, hkept, hcondemned⟩ := step_kept h.tracked.valid hstep
  obtain ⟨p, hp, hmem, hstate⟩ := liveSend_spec hlive
  obtain ⟨hmem, hpay⟩ := Outbound.mem_attemptRows.1 hmem
  obtain ⟨a, ha, hsame⟩ := hkept.attempts live hmem
  have hkey : Outbound.subjectKey p = (.withdrawal, id.uuid) := key_of_find hp
  have hp' : db.outbound.paymentBySubject .withdrawal id.uuid = some p :=
    (congrArg (fun k => find Outbound.subjectKey k db.outbound.payments) hkey).symm.trans
      (find_of_mem hsound.tracked.valid.subjects (hkept.payments p (mem_of_find hp)))
  have hrow : a ∈ db.outbound.attemptRows p.id :=
    Outbound.mem_attemptRows.2 ⟨ha, hsame.paymentId.trans hpay⟩
  have hnot : a.landingState ≠ .definitiveFailed := by
    intro hfailed
    rcases hkept.failed a ha hfailed with howned | hold | ⟨x, hx, hxa⟩
    · exact not_refundOwned hsound.tracked hp' hrow howned
    · obtain rfl := List.inj_on_of_nodup_map h.tracked.valid.attempt_ids hold hmem hsame.id
      rw [hfailed] at hstate
      cases hstate
    · have hxdead := hdead x (hcondemned x hx)
      rw [← mayLand_same hxa, mayLand_same hsame, hmay] at hxdead
      cases hxdead
  obtain ⟨hlast, hunreleased⟩ := open_of_not_failed hsound.tracked hp' hrow hnot
  exact ⟨⟨a, hlast, hsame, hnot⟩, hunreleased⟩

theorem step_stillOpen (h : Sound w) (htrue : truthful w a = true) (habout : aboutLive w a = true)
    (hstep : w.step d a = .ok w') (hlive : w.db.liveSend id = some live)
    (hmay : w.chain.mayLand live = true) : StillOpen w'.db id live := by
  cases World.step_moved hstep with
  | finalized height landings action grows landed =>
    obtain ⟨p, hp, hmem, hstate⟩ := liveSend_spec hlive
    have hnot : live.landingState ≠ .definitiveFailed := by
      intro hfailed
      rw [hfailed] at hstate
      cases hstate
    obtain ⟨hlast, hunreleased⟩ := open_of_not_failed h.tracked hp hmem hnot
    exact ⟨⟨live, hlast, .refl live, hnot⟩, hunreleased⟩
  | commanded c db stepped proof =>
    exact h.stillOpen_commanded stepped (fun x => condemned_dead h htrue habout proof) hlive hmay

end Steps

theorem w15_of_failed {c : Combo} (hlegal : c.isLegal = true) (h : c.status = .failed) :
    c = .w15 := by
  rw [Combo.isLegal_iff] at hlegal
  revert h
  revert c
  decide

/-- What was given back was never paid out. -/
theorem Sound.released (h : Sound w) {r : WithdrawalRow} (hr : r ∈ w.db.withdrawals)
    (hreleased : r.releaseTx ≠ none) {a : OutboundAttemptRow}
    (ha : a ∈ w.db.outbound.sends r.id.uuid) : w.chain.hasLanded a.signature = false := by
  have hlegal := h.conserved.legal r hr
  have hshape := h.tracked.shape r hr
  cases h.conserved.accounted r hr with
  | active _ release | settled _ _ release => exact absurd release hreleased
  | released _ status =>
    rcases status with hstatus | hstatus
    · rw [Combo.unsent_of_denied hlegal hstatus] at hshape
      change w.db.outbound.sends r.id.uuid = [] at hshape
      rw [hshape] at ha
      cases ha
    · rw [w15_of_failed hlegal hstatus] at hshape
      have hall : LastAt .definitiveFailed (w.db.outbound.sends r.id.uuid) := hshape
      obtain ⟨old, last, hrows, hlast, hold⟩ := hall.last
      have hfailed : a.landingState = .definitiveFailed := by
        rw [hrows, mem_concat] at ha
        rcases ha with ha | rfl
        · exact hold a ha
        · exact hlast
      cases hp : w.db.outbound.paymentBySubject .withdrawal r.id.uuid with
      | none =>
        rw [Outbound.sends, hp] at ha
        cases ha
      | some =>
        rw [Outbound.sends_of_payment hp] at ha
        have hmem := (Outbound.mem_attemptRows.1 ha).1
        have hdead := (h.dead a hmem hfailed).resolve_left (not_refundOwned h.tracked hp ha)
        exact (Bool.or_eq_false_iff.1 hdead).1

/-- With evidence about the attempt it is used against, a payment that has landed or can
still land is neither replaced nor released, and what is given back was never paid out. -/
theorem never_refunded_and_paid (d : Digests) (height : Int) (actions : List Action)
    (htrue : Along (World.step d) (fun w a => truthful w a = true) (.start height) actions)
    (habout : Along (World.step d) (fun w a => aboutLive w a = true) (.start height) actions) :
    (∀ before a later w', actions = before ++ a :: later →
      (run (World.step d) (.start height) before).step d a = .ok w' → ∀ id live,
      (run (World.step d) (.start height) before).db.liveSend id = some live →
      (run (World.step d) (.start height) before).chain.mayLand live = true →
      StillOpen w'.db id live) ∧
    ∀ r ∈ (run (World.step d) (.start height) actions).db.withdrawals, r.releaseTx ≠ none →
      ∀ a ∈ (run (World.step d) (.start height) actions).db.outbound.sends r.id.uuid,
        (run (World.step d) (.start height) actions).chain.hasLanded a.signature = false := by
  have hsound {xs : List Action}
      (ht : Along (World.step d) (fun w a => truthful w a = true) (.start height) xs)
      (ha : Along (World.step d) (fun w a => aboutLive w a = true) (.start height) xs) :
      Sound (run (World.step d) (.start height) xs) :=
    run_preserves_along (fun _ _ _ h hC hstep => step_sound h hC.1 hC.2 hstep)
      (sound_start height) (along_and.2 ⟨ht, ha⟩)
  constructor
  · rintro before a later w' rfl hstep id live hlive hmay
    have hbefore := hsound (along_append.1 htrue).1 (along_append.1 habout).1
    exact step_stillOpen hbefore htrue.here habout.here hstep hlive hmay
  · intro r hr hreleased a ha
    exact (hsound htrue habout).released hr hreleased ha

def sampleDigests : Digests := ⟨fun _ _ dest => dest, fun _ _ => ""⟩

def sampleUser : UserId := ⟨5⟩

def sampleId : WithdrawalId := ⟨9⟩

/-- What the three endpoints report about a signature. -/
def sampleEvidence (signature : String) (height : Int) (present : Bool) : List Evidence :=
  ["a", "b", "c"].map fun endpoint => ⟨signature, ⟨endpoint, some height, some present, false⟩⟩

/-- The replacement is valid up to block 20. -/
def sampleSecond : SendFacts :=
  { replacedSend "second" 2 11 with signed := .ok ([2], "second", 20) }

/-- The first payment never lands and is replaced; the second one lands in block 15, and
its broadcast is lost. -/
def sampleRun : List Action :=
  ((replacedHistory sampleUser sampleId).take 7).map .command ++
    [.finalize 11 [], .replaceExpired sampleSecond (sampleEvidence "first" 11 false) sampleId
      sampleUser, .command (.broadcast sampleSecond sampleId sampleUser true),
     .finalize 21 [("second", 15)], .command (.markUnknown replacedFacts sampleId sampleUser)]

def sampleProve (signature : String) (present : Bool) : Action :=
  .proveNonLanding replacedFacts replacedIdentity (sampleEvidence signature 21 present) sampleId
    sampleUser

def sampleWorld (actions : List Action) : World :=
  run (World.step sampleDigests) (.start 5) actions

/-- The first signature is truly absent at height 21; handed in against the second attempt,
that gives the money back although the second one has landed. -/
theorem refunded_after_payment :
    Along (World.step sampleDigests) (fun w a => truthful w a = true) (.start 5)
      (sampleRun ++ [sampleProve "first" false]) ∧
    ∃ r ∈ (sampleWorld (sampleRun ++ [sampleProve "first" false])).db.withdrawals,
      r.combo = .w15 ∧ r.releaseTx ≠ none ∧
      ∃ a ∈ (sampleWorld (sampleRun ++ [sampleProve "first" false])).db.outbound.sends r.id.uuid,
        (sampleWorld (sampleRun ++ [sampleProve "first" false])).chain.hasLanded a.signature =
          true := by
  decide +kernel

/-- The second attempt as it stands before the proof. -/
def sampleLive : OutboundAttemptRow :=
  { id := 2, paymentId := 7, attemptNumber := 2, replacesAttemptId := some 1, signedTxBytes := [2]
    signature := "second", lastValidBlockHeight := 20, landingState := .unknown
    leaseExpiresAt := some (20 + lease) }

/-- Evidence about the second attempt leaves it open. -/
theorem payment_stays_open :
    ∃ w', (sampleWorld sampleRun).step sampleDigests (sampleProve "second" true) = .ok w' ∧
      StillOpen w'.db sampleId sampleLive := by
  have hok : ((sampleWorld sampleRun).step sampleDigests (sampleProve "second" true)).isOk = true :=
    by decide +kernel
  obtain ⟨w', hstep⟩ := exists_of_isOk hok
  exact ⟨w', hstep,
    (never_refunded_and_paid sampleDigests 5 (sampleRun ++ [sampleProve "second" true])
      (by decide +kernel) (by decide +kernel)).1 sampleRun (sampleProve "second" true) [] w' rfl
      hstep sampleId sampleLive (by decide +kernel) (by decide +kernel)⟩

end Opinions.Money.NonLanding
