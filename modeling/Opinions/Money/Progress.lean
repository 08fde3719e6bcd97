import Opinions.Money.Attempts

/-! Writes to the outbound tables that are not refused. Where all attempts of a payment
but the last have failed for good, the last one can move along any legal edge, and once
it has failed too the next one can be inserted. No other attempt is live then, so the
partial unique indexes would not refuse these writes either. -/

namespace Opinions.Money.Outbound

open Lib.Result Lib.Rows Lib.Lineage Model Trade

/-- The payment's attempts end in `last`, after attempts that failed for good. -/
structure EndsIn (o : Outbound) (payment : Uuid) (older : List OutboundAttemptRow)
    (last : OutboundAttemptRow) : Prop where
  rows : o.attemptRows payment = older ++ [last]
  failed : ∀ b ∈ older, b.landingState = .definitiveFailed

/-- A transaction the signer may return: well formed, with a signature no attempt has. -/
structure Signs (o : Outbound) (signed : List UInt8 × String × Int) : Prop where
  bytes : signed.1 ≠ []
  signature : isBlank signed.2.1 = false
  lastValid : 0 < signed.2.2
  fresh : signed.2.1 ∉ o.attempts.map OutboundAttemptRow.signature

variable {signed : List UInt8 × String × Int} {o : Outbound} {payment : Uuid}

theorem Signs.notMem_attemptsFor (h : Signs o signed) (hv : o.Valid) (payment : Uuid) :
    signed.2.1 ∉ (o.attemptsFor payment).map OutboundAttemptRow.signature := by
  intro hmem
  obtain ⟨a, ha, hsig⟩ := List.mem_map.1 hmem
  rw [hv.attemptsFor_eq] at ha
  exact h.fresh (hsig ▸ List.mem_map_of_mem (mem_attemptRows.1 ha).1)

/-- A prepared attempt, as every kind of send inserts it. -/
def prepared (id payment : Uuid) (number : Int) (replaces : Option Uuid)
    (signed : List UInt8 × String × Int) (leaseExpiresAt : Instant) : OutboundAttemptRow :=
  { id := id, paymentId := payment, attemptNumber := number, replacesAttemptId := replaces
    signedTxBytes := signed.1, signature := signed.2.1, lastValidBlockHeight := signed.2.2
    landingState := .prepared, leaseExpiresAt := some leaseExpiresAt }

theorem validatePreparedShape_prepared (h : Signs o signed) (id payment : Uuid) (number : Int)
    (replaces : Option Uuid) (lease : Instant) :
    validatePreparedShape (prepared id payment number replaces signed lease) = .ok () := by
  have hvalid := h.lastValid
  simp only [validatePreparedShape, prepared]
  simp [h.bytes, h.signature, hvalid]

variable {a : OutboundAttemptRow} {id : Uuid} {older : List OutboundAttemptRow}

section Last

variable (hv : o.Valid) {last : OutboundAttemptRow} (h : EndsIn o payment older last)
include hv h

omit hv in
theorem EndsIn.mem : last ∈ o.attempts ∧ last.paymentId = payment := by
  refine mem_attemptRows.1 ?_
  rw [h.rows]
  simp

theorem EndsIn.payment_mem : payment ∈ o.payments.map OutboundPaymentRow.id := by
  obtain ⟨hmem, hpay⟩ := h.mem
  exact hpay ▸ hv.owned last hmem

theorem EndsIn.number : last.attemptNumber = 1 + (older.length : Int) := by
  have hlineage := hv.lineage payment
  rw [h.rows] at hlineage
  exact (follows_concat.1 hlineage).2.1

theorem EndsIn.liveAttempt (hlive : last.landingState.isLive = true) :
    o.liveAttempt payment = .ok (some last) := by
  have hfilter : (o.attemptRows payment).filter (fun a => a.landingState.isLive) = [last] := by
    have hnone : older.filter (fun a => a.landingState.isLive) = [] := by
      rw [List.filter_eq_nil_iff]
      intro b hb
      rw [h.failed b hb]
      decide
    rw [h.rows, List.filter_append, hnone, List.filter_singleton, hlive]
    rfl
  rw [Outbound.liveAttempt, refuse_neg (not_not.2 (h.payment_mem hv)), ok_bind, hv.attemptsFor_eq,
    hfilter]
  rfl

omit hv in
/-- A live attempt can only be the last. -/
theorem EndsIn.eq_of_live (hlive : o.liveAttempt payment = .ok (some a)) : a = last := by
  obtain ⟨hmem, hstate⟩ := liveAttempt_mem hlive
  rw [h.rows, mem_concat] at hmem
  rcases hmem with hmem | hmem
  · rw [h.failed a hmem] at hstate
    contradiction
  · exact hmem

theorem EndsIn.number_le {b : OutboundAttemptRow} (hb : b ∈ o.attemptRows payment) :
    b.attemptNumber ≤ last.attemptNumber := by
  have hpairwise := (hv.lineage payment).pairwise
  rw [h.rows, List.pairwise_append] at hpairwise
  rw [h.rows, mem_concat] at hb
  rcases hb with hb | rfl
  · exact le_of_lt (hpairwise.2.2 b hb last (List.mem_singleton_self _))
  · exact le_rfl

/-- The number of a further attempt, unless it runs out of 32 bits. -/
theorem EndsIn.nextAttemptNumber_eq :
    nextAttemptNumber (o.attemptsFor payment) = nextI32 last.attemptNumber := by
  have hmax : ((o.attemptRows payment).map OutboundAttemptRow.attemptNumber).max? =
      some last.attemptNumber := by
    rw [List.max?_eq_some_iff]
    refine ⟨?_, fun n hn => ?_⟩
    · rw [h.rows]
      simp
    · obtain ⟨b, hb, rfl⟩ := List.mem_map.1 hn
      exact h.number_le hv hb
  rw [nextAttemptNumber, hv.attemptsFor_eq, hmax]
  rfl

omit hv in
theorem EndsIn.others : ∀ b ∈ o.others last, b.landingState = .definitiveFailed := by
  intro b hb
  simp only [Outbound.others, List.mem_filter, decide_eq_true_eq] at hb
  obtain ⟨hmem, hpay, hne⟩ := hb
  have hrow : b ∈ o.attemptRows payment :=
    mem_attemptRows.2 ⟨hmem, hpay.trans (h.mem).2⟩
  rw [h.rows, mem_concat] at hrow
  rcases hrow with hrow | rfl
  · exact h.failed b hrow
  · exact absurd rfl hne

theorem EndsIn.save {state : LandingState}
    (hedge : legalAttemptEdge last.landingState state = true) :
    ∃ o', o.saveAttempt { last with landingState := state } = .ok o' ∧ o'.Valid ∧
      o'.payments = o.payments ∧ EndsIn o' payment older { last with landingState := state } ∧
      o'.attempts.map OutboundAttemptRow.signature = o.attempts.map OutboundAttemptRow.signature ∧
      o'.attempts.map OutboundAttemptRow.id = o.attempts.map OutboundAttemptRow.id := by
  obtain ⟨hmem, hpay⟩ := h.mem
  have hfind : find OutboundAttemptRow.id last.id o.attempts = some last :=
    find_of_mem hv.attempt_ids hmem
  have hnone : ∀ p : LandingState → Bool, p .definitiveFailed = false →
      (o.others { last with landingState := state }).any (fun b => p b.landingState) = false := by
    intro p hp
    rw [List.any_eq_false]
    intro b hb
    rw [h.others b hb, hp]
    decide
  have hsave : o.saveAttempt { last with landingState := state } = .ok { o with
      attempts := update OutboundAttemptRow.id last.id
        (OutboundAttemptRow.saved { last with landingState := state }) o.attempts } := by
    simp only [Outbound.saveAttempt, validateAttemptUpdate, ok_iff]
    refine ⟨(), not_not.2 (hpay ▸ h.payment_mem hv), last, hfind, (), ⟨(), by simp, ?_⟩, (), ?_, (),
      ?_, trivial⟩
    · simp [hedge]
    · rw [hnone LandingState.isLive rfl]
      simp
    · rw [hnone (fun s => decide (s = .finalized)) rfl]
      simp
  obtain ⟨current, hsaved⟩ := saveAttempt_spec hsave
  obtain rfl := hsaved.current_eq hv hmem rfl
  refine ⟨_, hsave, hsaved.valid hv, rfl, ⟨?_, h.failed⟩, ?_, ?_⟩
  · have hrows := hsaved.rows_last hv (hpay ▸ h.rows)
    rwa [← hpay]
  · exact hsaved.map_eq fun _ => rfl
  · exact hsaved.map_eq fun _ => rfl

/-- After a failed attempt the next one is inserted, while 32 bits can number it. -/
theorem EndsIn.insert (hstate : last.landingState = .definitiveFailed)
    (hnumber : last.attemptNumber < 2147483647) (hsigns : Signs o signed)
    (hid : id ∉ o.attempts.map OutboundAttemptRow.id) (lease : Instant) : ∃ o', o.insertAttempt
        (prepared id payment (nextI32 last.attemptNumber) (some last.id) signed lease) = .ok o' ∧
      o'.Valid ∧ o'.payments = o.payments ∧ EndsIn o' payment (older ++ [last])
        (prepared id payment (nextI32 last.attemptNumber) (some last.id) signed lease) := by
  set a := prepared id payment (nextI32 last.attemptNumber) (some last.id) signed lease with ha
  have hpay : a.paymentId = payment := rfl
  have hunique : a.attemptNumber ∉ (o.attemptRows payment).map OutboundAttemptRow.attemptNumber := by
    intro hmem
    obtain ⟨b, hb, hnum⟩ := List.mem_map.1 hmem
    have hle := h.number_le hv hb
    rw [hnum, ha, prepared, nextI32] at hle
    dsimp only at hle
    omega
  have hlast : (o.attemptRows payment).getLast? = some last := by
    rw [h.rows]
    simp
  have hinsert : o.insertAttempt a = .ok { o with attempts := o.attempts ++ [a] } := by
    simp only [Outbound.insertAttempt, validateAttemptLineage, hv.attemptsFor_eq, ok_iff]
    refine ⟨(), not_not.2 (h.payment_mem hv), (), ⟨(), ?_, ?_⟩, (),
      validatePreparedShape_prepared hsigns .., (), hsigns.fresh, (), hid, (), hunique, trivial⟩
    · rw [hpay, hlast]
      exact not_not.2 rfl
    · rw [hpay, hlast]
      simp [ha, prepared, refuse, hstate]
  have hins := insertAttempt_spec hv hinsert
  refine ⟨_, hinsert, hins.valid hv, rfl, ?_, ?_⟩
  · rw [hins.rows, if_pos hpay, h.rows]
  · intro b hb
    rcases mem_concat.1 hb with hb | rfl
    · exact h.failed b hb
    · rw [hstate]

end Last

theorem insertAttempt_first (hv : o.Valid)
    (hpayment : payment ∈ o.payments.map OutboundPaymentRow.id) (hrows : o.attemptRows payment = [])
    (hsigns : Signs o signed) (hid : id ∉ o.attempts.map OutboundAttemptRow.id) (lease : Instant) :
    o.insertAttempt (prepared id payment 1 none signed lease) =
      .ok { o with attempts := o.attempts ++ [prepared id payment 1 none signed lease] } := by
  set a := prepared id payment 1 none signed lease with ha
  have hpay : a.paymentId = payment := rfl
  simp only [Outbound.insertAttempt, validateAttemptLineage, hv.attemptsFor_eq, ok_iff]
  refine ⟨(), not_not.2 hpayment, (), ⟨(), ?_, ?_⟩, (), validatePreparedShape_prepared hsigns ..,
    (), hsigns.fresh, (), hid, (), ?_, trivial⟩
  · rw [hpay, hrows]
    exact not_not.2 rfl
  · rw [hpay, hrows]
    simp [ha, prepared, refuse]
  · rw [hpay, hrows]
    simp

/-- The last attempt fails for good and the next one follows it. -/
theorem EndsIn.replace (hv : o.Valid) {old : OutboundAttemptRow} (h : EndsIn o payment older old)
    (hstate : old.landingState = .unknown) (hnumber : (o.attemptsFor payment).length < 2147483647)
    (hsigns : Signs o signed) (hid : id ∉ o.attempts.map OutboundAttemptRow.id) (lease : Instant) :
    ∃ mid o', o.saveAttempt { old with landingState := .definitiveFailed } = .ok mid ∧
      mid.insertAttempt (prepared id payment (nextAttemptNumber (o.attemptsFor payment))
        (some old.id) signed lease) = .ok o' ∧ o'.Valid ∧ o'.payments = o.payments ∧
      EndsIn o' payment (older ++ [{ old with landingState := .definitiveFailed }])
        (prepared id payment (nextAttemptNumber (o.attemptsFor payment)) (some old.id) signed
          lease) := by
  have hbound : old.attemptNumber < 2147483647 := by
    rw [hv.attemptsFor_eq, h.rows, List.length_append, List.length_singleton] at hnumber
    have := h.number hv
    omega
  have hedge : legalAttemptEdge old.landingState .definitiveFailed = true := by
    rw [hstate]
    rfl
  obtain ⟨mid, hsave, hmid, hpayments, hends, hsigs, hids⟩ := h.save hv hedge
  rw [h.nextAttemptNumber_eq hv]
  have hsigns' : Signs mid signed :=
    ⟨hsigns.bytes, hsigns.signature, hsigns.lastValid, hsigs ▸ hsigns.fresh⟩
  obtain ⟨o', hinsert, hv', hpayments', hends'⟩ :=
    hends.insert hmid rfl hbound hsigns' (hids ▸ hid) lease
  exact ⟨mid, o', hsave, hinsert, hv', hpayments'.trans hpayments, hends'⟩

variable {o' : Outbound}

/-- A replacement that was inserted had a number left. -/
theorem length_lt_of_replaced {mid : Outbound} (hv : o.Valid) {new : OutboundAttemptRow}
    (hsave : o.saveAttempt a = .ok mid) (hinsert : mid.insertAttempt new = .ok o')
    (hnumber : new.attemptNumber = nextAttemptNumber (o.attemptsFor new.paymentId)) :
    (o.attemptsFor new.paymentId).length < 2147483647 := by
  obtain ⟨current, hsaved⟩ := saveAttempt_spec hsave
  have hins := insertAttempt_spec (hsaved.valid hv) hinsert
  have hfollows := (follows_concat.1 hins.follows).2.1
  change new.attemptNumber = 1 + ((mid.attemptRows new.paymentId).length : Int) at hfollows
  have hlength : (mid.attemptRows new.paymentId).length = (o.attemptsFor new.paymentId).length := by
    rw [hsaved.rows, update, List.length_map, hv.attemptsFor_eq]
  have hle : nextAttemptNumber (o.attemptsFor new.paymentId) ≤ 2147483647 := min_le_right _ _
  omega

/-- Of every payment's attempts only the last may still be under way. -/
structure Chained (o : Outbound) : Prop where
  valid : o.Valid
  ends : ∀ payment older last, o.attemptRows payment = older ++ [last] →
    EndsIn o payment older last

theorem chained_empty : Chained ⟨[], []⟩ where
  valid := ⟨List.nodup_nil, List.nodup_nil, List.nodup_nil, List.nodup_nil, by simp,
    fun _ => trivial⟩
  ends := by
    intro payment older last h
    simp [attemptRows] at h

theorem Chained.insertPayment {p : OutboundPaymentRow} (h : Chained o)
    (hins : o.insertPayment p = .ok o') : Chained o' := by
  obtain ⟨hv, -, hattempts, -, -⟩ := insertPayment_spec h.valid hins
  refine ⟨hv, fun payment older last hrows => ⟨hrows, ?_⟩⟩
  rw [attemptRows, hattempts] at hrows
  exact (h.ends payment older last hrows).failed

theorem Chained.insertAttempt (h : Chained o) (hinsert : o.insertAttempt a = .ok o') :
    Chained o' := by
  have hins := insertAttempt_spec h.valid hinsert
  refine ⟨hins.valid h.valid, fun payment older last hrows => ⟨hrows, ?_⟩⟩
  rw [hins.rows] at hrows
  split_ifs at hrows with hpay
  · subst hpay
    obtain ⟨hold, -⟩ := List.append_inj' hrows rfl
    intro b hb
    rw [← hold] at hb
    rcases List.eq_nil_or_concat' (o.attemptRows a.paymentId) with hnil | ⟨init, p, hconcat⟩
    · rw [hnil] at hb
      contradiction
    · rw [hconcat, mem_concat] at hb
      rcases hb with hb | rfl
      · exact (h.ends _ _ _ hconcat).failed b hb
      · exact hins.failed b (by rw [hconcat]; simp)
  · rw [List.append_nil] at hrows
    exact (h.ends payment older last hrows).failed

theorem Chained.saveAttempt (h : Chained o) (hsave : o.saveAttempt a = .ok o') : Chained o' := by
  obtain ⟨current, hsaved⟩ := saveAttempt_spec hsave
  refine ⟨hsaved.valid h.valid, fun payment older last hrows => ⟨hrows, ?_⟩⟩
  rw [hsaved.rows, update] at hrows
  obtain ⟨old, rest, hold, hmap, hrest⟩ := List.map_eq_append_iff.1 hrows
  obtain ⟨last', rfl, -⟩ := List.map_eq_singleton_iff.1 hrest
  intro b hb
  rw [← hmap] at hb
  obtain ⟨r, hr, rfl⟩ := List.mem_map.1 hb
  have hfailed := (h.ends payment old last' hold).failed r hr
  split_ifs with hid
  · -- a failed attempt is only saved as failed
    have hmem : r ∈ o.attempts := by
      refine (mem_attemptRows.1 (?_ : r ∈ o.attemptRows payment)).1
      rw [hold]
      exact List.mem_append_left _ hr
    have hedge := hsaved.edge
    rw [hsaved.current_eq h.valid hmem hid, hfailed] at hedge
    exact legalAttemptEdge_definitiveFailed hedge
  · exact hfailed

end Opinions.Money.Outbound
