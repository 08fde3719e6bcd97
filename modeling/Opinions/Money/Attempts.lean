import Opinions.Money.Holds

/-! The attempts behind a withdrawal. All attempts of a row's payment but the last
have failed for good, and the row's send state says where the last one stands; so the
row and the attempt table cannot drift apart, however lookups, replacements and
receipts meet. -/

namespace Opinions.Money

open Lib.Result Lib.Rows Lib.Run Lib.Lineage Model Store Trade

/-! ### One payment's rows -/

variable {o o' : Outbound} {id : Uuid} {p : OutboundPaymentRow} {a current : OutboundAttemptRow}

namespace Outbound

/-- The attempts of a withdrawal's payment, none if there is no payment yet. -/
def sends (o : Outbound) (id : Uuid) : List OutboundAttemptRow :=
  (o.paymentBySubject .withdrawal id).elim [] fun p => o.attemptRows p.id

theorem sends_of_payment (h : o.paymentBySubject .withdrawal id = some p) :
    o.sends id = o.attemptRows p.id := by
  rw [sends, h]
  rfl

/-- Only attempts of one payment changed. -/
structure Only (payment : Uuid) (o o' : Outbound) : Prop where
  payments : o'.payments = o.payments
  rows : ∀ q, payment ≠ q → o'.attemptRows q = o.attemptRows q

theorem Inserted.only (h : Inserted o a o') : Only a.paymentId o o' :=
  ⟨h.payments, fun q hq => by rw [h.rows, if_neg hq, List.append_nil]⟩

theorem Saved.only (h : Saved o a current o') (hv : o.Valid) : Only a.paymentId o o' :=
  ⟨h.payments, fun _ hq => h.rows_of_ne hv hq⟩

theorem Only.paymentBySubject {payment : Uuid} (h : Only payment o o') (subject : OutboundSubject)
    (id : Uuid) :
    o'.paymentBySubject subject id = o.paymentBySubject subject id := by
  rw [Outbound.paymentBySubject, h.payments, Outbound.paymentBySubject]

/-- A payment of another subject has another identifier, so its attempts stand. -/
theorem Only.sends (h : Only p.id o o') (hv : o.Valid) (hp : p ∈ o.payments)
    (hne : subjectKey p ≠ (.withdrawal, id)) :
    o'.sends id = o.sends id := by
  rw [Outbound.sends, h.paymentBySubject, Outbound.sends]
  cases hq : o.paymentBySubject .withdrawal id with
  | none => rfl
  | some q =>
    refine h.rows q.id fun hid => hne ?_
    rw [List.inj_on_of_nodup_map hv.payment_ids hp (mem_of_find hq) hid]
    exact key_of_find hq

theorem insertPayment_sends (hv : o.Valid) (h : o.insertPayment p = .ok o')
    (hne : subjectKey p ≠ (.withdrawal, id)) :
    o'.sends id = o.sends id := by
  obtain ⟨-, hpayments, hattempts, -, -⟩ := insertPayment_spec hv h
  rw [Outbound.sends, Outbound.paymentBySubject, hpayments, find_append, Outbound.sends,
    Outbound.paymentBySubject]
  have hnone : find subjectKey (.withdrawal, id) [p] = none := by
    rw [find_cons, if_neg hne, find_nil]
  rw [hnone, Option.or_none]
  simp only [attemptRows, hattempts]

theorem Saved.current_mem (h : Saved o a current o') : current ∈ o.attemptRows a.paymentId :=
  mem_attemptRows.2 ⟨mem_of_find h.found, h.payment⟩

theorem Saved.rows_last {last : OutboundAttemptRow} {old : List OutboundAttemptRow}
    (h : Saved o a last o') (hv : o.Valid) (hrows : o.attemptRows a.paymentId = old ++ [last]) :
    o'.attemptRows a.paymentId = old ++ [a.saved last] := by
  have hnd := hv.rows_ids a.paymentId
  have hid : last.id = a.id := key_of_find h.found
  rw [h.rows, hrows, ← hid]
  rw [hrows] at hnd
  exact update_concat hnd

/-- The row a save names, found among the rows of the payment. -/
theorem Saved.current_eq {b : OutboundAttemptRow} (h : Saved o a current o') (hv : o.Valid)
    (hb : b ∈ o.attempts) (hid : b.id = a.id) :
    current = b := by
  have hfind := find_of_mem hv.attempt_ids hb
  rw [hid, h.found] at hfind
  exact Option.some.inj hfind

end Outbound

/-! ### What a send state says about the attempts -/

/-- Where the last attempt of a row with this send state stands. -/
def carried : WithdrawalSendState → Option LandingState
  | .unsent => none
  | .sending => some .prepared
  | .broadcast => some .broadcast
  | .finalized => some .finalized
  | .definitiveFailed => some .definitiveFailed
  | .unknown => some .unknown

variable {send : WithdrawalSendState}

theorem carried_finalized (h : carried send = some .finalized) : send = .finalized := by
  cases send <;> cases h
  rfl

/-- Every attempt but the last has failed for good; the last one is where the row says. -/
structure LastAt (state : LandingState) (attempts : List OutboundAttemptRow) : Prop where
  last : ∃ old a, attempts = old ++ [a] ∧ a.landingState = state ∧
    ∀ b ∈ old, b.landingState = .definitiveFailed

def Shape (send : WithdrawalSendState) (attempts : List OutboundAttemptRow) : Prop :=
  match carried send with
  | none => attempts = []
  | some state => LastAt state attempts

variable {state : LandingState} {c start stop : Combo}

theorem Landing.carried_start (h : Landing start state stop) :
    ∃ s, carried start.send = some s ∧ s.isLive = true := by
  cases h <;> exact ⟨_, rfl, rfl⟩

theorem Landing.carried_stop (h : Landing start state stop) :
    carried stop.send = some state ∧ state ≠ .definitiveFailed := by
  cases h <;> exact ⟨rfl, by decide⟩

/-- An attempt that failed for good changes no more. -/
theorem legalAttemptEdge_definitiveFailed {next : LandingState}
    (h : legalAttemptEdge .definitiveFailed next = true) : next = .definitiveFailed := by
  cases next <;> first | rfl | cases h

/-- A save that does not declare a failure is of the last attempt. -/
theorem LastAt.saved (h : LastAt state (o.attemptRows a.paymentId))
    (hs : Outbound.Saved o a current o') (hv : o.Valid)
    (hlive : a.landingState ≠ .definitiveFailed ∨ current.landingState.isLive = true) :
    current.landingState = state ∧ LastAt a.landingState (o'.attemptRows a.paymentId) := by
  obtain ⟨old, last, hrows, hstate, hold⟩ := h.last
  have hmem := hs.current_mem
  rw [hrows, mem_concat] at hmem
  rcases hmem with hmem | rfl
  · have hedge := hs.edge
    rw [hold _ hmem] at hedge hlive
    rcases hlive with hne | hlive
    · exact absurd (legalAttemptEdge_definitiveFailed hedge) hne
    · cases hlive
  · exact ⟨hstate, ⟨old, a.saved current, hs.rows_last hv hrows, rfl, hold⟩⟩

theorem LastAt.inserted (h : LastAt .definitiveFailed (o.attemptRows a.paymentId))
    (hi : Outbound.Inserted o a o') :
    LastAt .prepared (o'.attemptRows a.paymentId) := by
  obtain ⟨old, last, hrows, hstate, hold⟩ := h.last
  refine ⟨o.attemptRows a.paymentId, a, ?_, hi.prepared, ?_⟩
  · rw [hi.rows, if_pos rfl]
  · intro b hb
    rw [hrows, mem_concat] at hb
    rcases hb with hb | rfl
    · exact hold b hb
    · exact hstate

/-! ### The tables together -/

/-- The outbound tables changed for one withdrawal at most. -/
structure OnlyFor (id : Uuid) (o o' : Outbound) : Prop where
  valid : o'.Valid
  owned : ∀ p ∈ o'.payments, p.subject = .withdrawal → p ∈ o.payments ∨ p.subjectId = id
  others : ∀ id', id' ≠ id → o'.sends id' = o.sends id'

theorem OnlyFor.of_only (hv : o.Valid) (hp : o.paymentBySubject .withdrawal id = some p)
    (h : Outbound.Only p.id o o') (hv' : o'.Valid) : OnlyFor id o o' := by
  refine ⟨hv', fun q hq _ => Or.inl (h.payments ▸ hq), fun id' hne => ?_⟩
  refine h.sends hv (mem_of_find hp) fun hkey => hne ?_
  have hpkey : Outbound.subjectKey p = (.withdrawal, id) := key_of_find hp
  rw [hpkey, Prod.mk.injEq] at hkey
  exact hkey.2.symm

theorem OnlyFor.trans {o₁ o₂ o₃ : Outbound} (h₁ : OnlyFor id o₁ o₂) (h₂ : OnlyFor id o₂ o₃) :
    OnlyFor id o₁ o₃ := by
  refine ⟨h₂.valid, fun p hp hs => ?_, fun q hq => (h₂.others q hq).trans (h₁.others q hq)⟩
  rcases h₂.owned p hp hs with hp | hid
  · exact h₁.owned p hp hs
  · exact Or.inr hid

variable {row : WithdrawalRow}

theorem FirstAttempt.last (h : FirstAttempt o row a o') (hv : o.Valid) :
    OnlyFor row.id.uuid o o' ∧ LastAt .prepared (o'.sends row.id.uuid) := by
  obtain ⟨mid, p, hins, hpay, hempty, hkey, hmid⟩ := h.payment
  have hclaim : OnlyFor row.id.uuid o mid ∧ p ∈ mid.payments := by
    rcases hmid with ⟨rfl, hp⟩ | hnew
    · exact ⟨⟨hv, fun q hq _ => Or.inl hq, fun _ _ => rfl⟩, hp⟩
    · obtain ⟨hv', hpayments, -, -, -⟩ := Outbound.insertPayment_spec hv hnew
      refine ⟨⟨hv', fun q hq _ => ?_, fun id' hne => ?_⟩, ?_⟩
      · rw [hpayments, mem_concat] at hq
        rcases hq with hq | rfl
        · exact Or.inl hq
        · exact Or.inr (Prod.mk.inj hkey).2
      · refine Outbound.insertPayment_sends hv hnew ?_
        rw [hkey]
        exact fun heq => hne (Prod.mk.inj heq).2.symm
      · rw [hpayments]
        exact List.mem_append_right _ (List.mem_singleton_self p)
  obtain ⟨honly, hp⟩ := hclaim
  have hfound : mid.paymentBySubject .withdrawal row.id.uuid = some p :=
    (congrArg (fun k => find Outbound.subjectKey k mid.payments) hkey).symm.trans
      (find_of_mem honly.valid.subjects hp)
  have hi := Outbound.insertAttempt_spec honly.valid hins
  have honly' : Outbound.Only p.id mid o' := hpay ▸ hi.only
  refine ⟨honly.trans (.of_only honly.valid hfound honly' (hi.valid honly.valid)), ?_⟩
  rw [Outbound.sends_of_payment ((honly'.paymentBySubject _ _).trans hfound), ← hpay, hi.rows,
    if_pos rfl, hpay, ← honly.valid.attemptsFor_eq, hempty]
  exact ⟨[], a, rfl, hi.prepared, by simp⟩

theorem RefundWrite.others (h : RefundWrite o o') (hv : o.Valid) :
    o'.Valid ∧ (∀ p ∈ o'.payments, p.subject = .withdrawal → p ∈ o.payments) ∧
      ∀ id, o'.sends id = o.sends id := by
  have hkey : ∀ {p : OutboundPaymentRow} (id : Uuid), p.subject = .depositRefund →
      Outbound.subjectKey p ≠ (.withdrawal, id) := by
    intro p id hp heq
    rw [Outbound.subjectKey, hp] at heq
    cases heq
  cases h with
  | payment p subject write =>
    obtain ⟨hv', hpayments, -, -, -⟩ := Outbound.insertPayment_spec hv write
    refine ⟨hv', fun q hq hs => ?_, fun id => Outbound.insertPayment_sends hv write (hkey id subject)⟩
    rw [hpayments, mem_concat] at hq
    rcases hq with hq | rfl
    · exact hq
    · rw [subject] at hs
      cases hs
  | attempt p a mem subject owner write =>
    have hi := Outbound.insertAttempt_spec hv write
    have honly : Outbound.Only p.id o o' := owner ▸ hi.only
    exact ⟨hi.valid hv, fun q hq _ => hi.payments ▸ hq, fun id => honly.sends hv mem (hkey id subject)⟩
  | landing p a mem subject owner write =>
    obtain ⟨current, hs⟩ := Outbound.saveAttempt_spec write
    have honly : Outbound.Only p.id o o' := owner ▸ hs.only hv
    exact ⟨hs.valid hv, fun q hq _ => hs.payments ▸ hq, fun id => honly.sends hv mem (hkey id subject)⟩

variable {db db' : MoneyDb} (hids : (db.withdrawals.map WithdrawalRow.id).Nodup)

include hids in
theorem RowMoved.stay
    (hfound : db.withdrawal row.id = some row) (hw : db'.withdrawals = db.withdrawals) :
    RowMoved db row row db' := by
  refine ⟨hfound, hw.trans (update_eq_self fun r hr hid => ?_).symm⟩
  have hfind := find_of_mem hids hr
  rw [hid] at hfind
  rw [Option.mem_unique hfind hfound]
  rfl

/-- The attempt a save may declare failed is the live one. -/
def SaveAllowed (o : Outbound) (row : WithdrawalRow) (a : OutboundAttemptRow) : Prop :=
  a.landingState ≠ .definitiveFailed ∨ ∃ b, LiveAt o row b ∧ b.id = a.id

theorem AttemptSaved.last (h : AttemptSaved o row a o') (hv : o.Valid)
    (hlast : LastAt state (o.sends row.id.uuid)) (hallowed : SaveAllowed o row a) :
    OnlyFor row.id.uuid o o' ∧ LastAt a.landingState (o'.sends row.id.uuid) ∧
      ∃ current, Outbound.Saved o a current o' ∧ current.landingState = state := by
  obtain ⟨⟨p, hp, hpay⟩, hsave⟩ := h
  obtain ⟨current, hs⟩ := Outbound.saveAttempt_spec hsave
  rw [Outbound.sends_of_payment hp, hpay] at hlast
  have hlive : a.landingState ≠ .definitiveFailed ∨ current.landingState.isLive = true := by
    refine hallowed.imp_right ?_
    rintro ⟨b, ⟨q, hq, hb⟩, hid⟩
    obtain ⟨hmem, hlive⟩ := liveAttempt_mem hb
    rwa [hs.current_eq hv (Outbound.mem_attemptRows.1 hmem).1 hid]
  obtain ⟨hstate, hlast'⟩ := hlast.saved hs hv hlive
  have honly : Outbound.Only p.id o o' := hpay ▸ hs.only hv
  have hp' : o'.paymentBySubject .withdrawal row.id.uuid = some p :=
    (honly.paymentBySubject _ _).trans hp
  refine ⟨.of_only hv hp honly (hs.valid hv), ?_, current, hs, hstate⟩
  rwa [Outbound.sends_of_payment hp', hpay]

structure Tracked (db : MoneyDb) : Prop where
  valid : db.outbound.Valid
  owned : ∀ p ∈ db.outbound.payments, p.subject = .withdrawal →
    ∃ r ∈ db.withdrawals, r.id.uuid = p.subjectId
  shape : ∀ r ∈ db.withdrawals, Shape r.combo.send (db.outbound.sends r.id.uuid)

theorem tracked_empty : Tracked MoneyDb.empty where
  valid := by
    refine ⟨List.nodup_nil, List.nodup_nil, List.nodup_nil, List.nodup_nil, ?_, fun _ => trivial⟩
    simp [MoneyDb.empty]
  owned := by simp [MoneyDb.empty]
  shape := by simp [MoneyDb.empty]

section Steps

variable (ht : Tracked db)
include ht

theorem Tracked.lastAt (hfound : db.withdrawal row.id = some row)
    (hcarried : carried row.combo.send = some state) :
    LastAt state (db.outbound.sends row.id.uuid) := by
  have hshape := ht.shape row (mem_of_find hfound)
  rwa [Shape, hcarried] at hshape

variable {next : WithdrawalRow}

include hids in
/-- One row moved, and the outbound tables changed for that row at most. -/
theorem Tracked.moved (hmoved : RowMoved db row next db')
    (honly : OnlyFor row.id.uuid db.outbound db'.outbound)
    (hshape : Shape next.combo.send (db'.outbound.sends row.id.uuid)) : Tracked db' where
  valid := honly.valid
  owned := by
    intro p hp hsubject
    have hrow : ∃ r ∈ db.withdrawals, r.id.uuid = p.subjectId := by
      rcases honly.owned p hp hsubject with hp | hid
      · exact ht.owned p hp hsubject
      · exact ⟨row, mem_of_find hmoved.found, hid.symm⟩
    obtain ⟨r, hr, hid⟩ := hrow
    have hmem : r.id ∈ db'.withdrawals.map WithdrawalRow.id := hmoved.ids ▸ List.mem_map_of_mem hr
    obtain ⟨r', hr', hid'⟩ := List.mem_map.1 hmem
    exact ⟨r', hr', hid' ▸ hid⟩
  shape := by
    intro r hr
    rcases hmoved.mem hids hr with rfl | ⟨hr, hne⟩
    · exact hshape
    · rw [honly.others _ fun h => hne (congrArg WithdrawalId.mk h)]
      exact ht.shape r hr

theorem Tracked.onlyFor_self (id : Uuid) (ho : db'.outbound = db.outbound) :
    OnlyFor id db.outbound db'.outbound := by
  rw [ho]
  exact ⟨ht.valid, fun p hp _ => Or.inl hp, fun _ _ => rfl⟩

include hids in
/-- A move that leaves the attempts and the send state alone. -/
theorem Tracked.reviewed (hmoved : RowMoved db row next db') (ho : db'.outbound = db.outbound)
    (hsend : next.combo.send = row.combo.send) : Tracked db' := by
  refine ht.moved hids hmoved (ht.onlyFor_self _ ho) ?_
  rw [hsend, ho]
  exact ht.shape row (mem_of_find hmoved.found)

/-- The rows stand, and so do the attempts of every withdrawal. -/
theorem Tracked.kept (hw : db'.withdrawals = db.withdrawals) (hv : db'.outbound.Valid)
    (hp : ∀ p ∈ db'.outbound.payments, p.subject = .withdrawal → p ∈ db.outbound.payments)
    (hsends : ∀ id, db'.outbound.sends id = db.outbound.sends id) : Tracked db' where
  valid := hv
  owned := fun p hmem hs => hw ▸ ht.owned p (hp p hmem hs) hs
  shape := fun r hr => hsends r.id.uuid ▸ ht.shape r (hw ▸ hr)

theorem Tracked.requested (hcombo : row.combo = .w1)
    (hfresh : row.id ∉ db.withdrawals.map WithdrawalRow.id)
    (hw : db'.withdrawals = db.withdrawals ++ [row]) (ho : db'.outbound = db.outbound) :
    Tracked db' where
  valid := ho ▸ ht.valid
  owned := fun p hp hs => by
    obtain ⟨r, hr, hid⟩ := ht.owned p (ho ▸ hp) hs
    exact ⟨r, hw ▸ List.mem_append_left _ hr, hid⟩
  shape := fun r hr => by
    rw [hw, mem_concat] at hr
    rw [ho]
    rcases hr with hr | rfl
    · exact ht.shape r hr
    · -- a payment for the new row would belong to a row that is already there
      rw [hcombo]
      change db.outbound.sends r.id.uuid = []
      cases hp : db.outbound.paymentBySubject .withdrawal r.id.uuid with
      | none => rw [Outbound.sends, hp]; rfl
      | some p =>
        have hkey : Outbound.subjectKey p = (.withdrawal, r.id.uuid) := key_of_find hp
        obtain ⟨hsubject, hid⟩ := Prod.mk.inj hkey
        obtain ⟨r', hr', hid'⟩ := ht.owned p (mem_of_find hp) hsubject
        refine absurd (List.mem_map.2 ⟨r', hr', ?_⟩) hfresh
        exact congrArg WithdrawalId.mk (hid'.trans hid)

include hids in
/-- A save for the row's payment leaves the row's last attempt where the next state says. -/
theorem Tracked.landed (hmoved : RowMoved db row next db')
    (hsaved : AttemptSaved db.outbound row a db'.outbound)
    (hallowed : SaveAllowed db.outbound row a) (hstart : carried row.combo.send = some state)
    (hstop : carried next.combo.send = some a.landingState) : Tracked db' := by
  obtain ⟨honly, hlast, -⟩ :=
    hsaved.last ht.valid (ht.lastAt hmoved.found hstart) hallowed
  refine ht.moved hids hmoved honly ?_
  rwa [Shape, hstop]

include hids in
theorem Tracked.replaced {old : OutboundAttemptRow} {mid : Outbound}
    (hmoved : RowMoved db row next db')
    (hstart : row.combo = .w7) (hstop : next.combo = .w8) (hlive : LiveAt db.outbound row old)
    (hfailed : AttemptSaved db.outbound row { old with landingState := .definitiveFailed } mid)
    (howner : a.paymentId = old.paymentId) (hins : mid.insertAttempt a = .ok db'.outbound) :
    Tracked db' := by
  obtain ⟨honly, hlast, -⟩ :=
    hfailed.last ht.valid (ht.lastAt hmoved.found (by rw [hstart]; rfl)) (Or.inr ⟨old, hlive, rfl⟩)
  obtain ⟨⟨p, hp, hpay⟩, hsave⟩ := hfailed
  obtain ⟨current, hs⟩ := Outbound.saveAttempt_spec hsave
  have hid : p.id = a.paymentId := hpay.trans howner.symm
  have hp' : mid.paymentBySubject .withdrawal row.id.uuid = some p :=
    ((hs.only ht.valid).paymentBySubject _ _).trans hp
  have hi := Outbound.insertAttempt_spec honly.valid hins
  have honly' : Outbound.Only p.id mid db'.outbound := hid ▸ hi.only
  refine ht.moved hids hmoved (honly.trans (.of_only honly.valid hp' honly' (hi.valid honly.valid))) ?_
  rw [hstop]
  change LastAt .prepared _
  rw [Outbound.sends_of_payment hp', hid] at hlast
  rw [Outbound.sends_of_payment ((honly'.paymentBySubject _ _).trans hp'), hid]
  exact hlast.inserted hi

include hids in
theorem Tracked.effect (h : Effect db db') : Tracked db' := by
  cases h with
  | quiet _ withdrawals outbound =>
    exact ht.kept withdrawals (outbound ▸ ht.valid) (fun p hp _ => outbound ▸ hp)
      fun _ => by rw [outbound]
  | requested row mid _ _ combo _ fresh withdrawals outbound =>
    exact ht.requested combo fresh withdrawals outbound
  | reviewed row next moved edge _ _ outbound =>
    exact ht.reviewed hids moved outbound edge.send
  | denied row next moved target _ outbound =>
    exact ht.reviewed hids moved outbound (Combo.denyTarget_send target)
  | claimed row next a moved start stop _ first =>
    obtain ⟨honly, hlast⟩ := first.last ht.valid
    refine ht.moved hids moved honly ?_
    rwa [stop]
  | landed row next a moved edge _ attempt =>
    obtain ⟨state, hstart, -⟩ := edge.carried_start
    exact ht.landed hids moved attempt (Or.inl edge.carried_stop.2) hstart edge.carried_stop.1
  | noted row a found combo state attempt _ withdrawals =>
    have hcarried : carried row.combo.send = some .unknown := by rw [combo]; rfl
    exact ht.landed hids (.stay hids found withdrawals) attempt (Or.inl (by rw [state]; decide))
      hcarried (state ▸ hcarried)
  | replaced row next old a mid moved start stop _ live failed owner inserted =>
    exact ht.replaced hids moved start stop live failed owner inserted
  | failed row next old moved start stop live attempt =>
    have hstart : ∃ state, carried row.combo.send = some state := by
      rcases start with hs | hs <;> rw [hs] <;> exact ⟨_, rfl⟩
    obtain ⟨state, hstart⟩ := hstart
    exact ht.landed hids moved attempt (Or.inr ⟨old, live, rfl⟩) hstart (by rw [stop]; rfl)
  | settled row next key moved start stop _ _ outbound =>
    exact ht.reviewed hids moved outbound (by rw [start, stop]; rfl)
  | refund write _ withdrawals =>
    obtain ⟨hv, hp, hsends⟩ := write.others ht.valid
    exact ht.kept withdrawals hv hp hsends

end Steps

theorem tracked_run (d : Digests) (cmds : List Command) :
    Conserved (run (MoneyDb.step d) MoneyDb.empty cmds) ∧
      Tracked (run (MoneyDb.step d) MoneyDb.empty cmds) :=
  run_preserves (P := fun db => Conserved db ∧ Tracked db)
    (fun _ _ _ _ h hstep => ⟨h.1.effect (MoneyDb.step_effect hstep),
      h.2.effect h.1.ids (MoneyDb.step_effect hstep)⟩)
    ⟨conserved_empty, tracked_empty⟩

/-! ### Reading the invariant -/

/-- The attempts of one payment: one live and one finalized at most, numbered from one
without gaps, each after the first naming the one before it. -/
structure Orderly (attempts : List OutboundAttemptRow) : Prop where
  live : (attempts.filter fun a => a.landingState.isLive).length ≤ 1
  finalized : (attempts.filter fun a => a.landingState = .finalized).length ≤ 1
  numbers : attempts.map OutboundAttemptRow.attemptNumber =
    (List.range attempts.length).map fun i : Nat => 1 + (i : Int)
  first : ∀ a rest, attempts = a :: rest → a.replacesAttemptId = none
  parents : ∀ l a b r, attempts = l ++ a :: b :: r → b.replacesAttemptId = some a.id

/-- What the row's state says about the live attempt. -/
structure Corresponds (c : Combo) (attempts : List OutboundAttemptRow) : Prop where
  sending : c.send = .sending → ∃ a ∈ attempts, a.landingState = .prepared
  broadcast : c = .w6 → ∃ a ∈ attempts, a.landingState = .broadcast
  unknown : c = .w7 → ∃ a ∈ attempts, a.landingState = .unknown
  unsent : c.send = .unsent ∨ c.status = .denied →
    ∀ a ∈ attempts, a.landingState.isLive = false

variable {attempts : List OutboundAttemptRow}

/-- Any test that rejects failed attempts keeps the last one at most. -/
theorem LastAt.filter_eq (h : LastAt state attempts) (p : LandingState → Bool)
    (hp : p .definitiveFailed = false) :
    ∃ a ∈ attempts, a.landingState = state ∧
      attempts.filter (fun a => p a.landingState) = if p state then [a] else [] := by
  obtain ⟨old, a, rfl, hstate, hold⟩ := h.last
  refine ⟨a, List.mem_append_right _ (List.mem_singleton_self a), hstate, ?_⟩
  have hnone : old.filter (fun b => p b.landingState) = [] :=
    List.filter_eq_nil_iff.2 fun b hb => by simp [hold b hb, hp]
  rw [List.filter_append, hnone, List.nil_append, List.filter_singleton, hstate, cond_eq_ite]

/-- Of the attempts a row's state allows, a test that rejects failed ones keeps one at most. -/
theorem Shape.filter_length (h : Shape send attempts) (p : LandingState → Bool)
    (hp : p .definitiveFailed = false) :
    (attempts.filter fun a => p a.landingState).length ≤ 1 := by
  unfold Shape at h
  split at h
  · simp [h]
  · obtain ⟨a, -, -, heq⟩ := h.filter_eq p hp
    rw [heq]
    split_ifs <;> simp

theorem Shape.orderly (h : Shape send attempts) (hf : Follows Outbound.scheme none 1 attempts) :
    Orderly attempts where
  live := h.filter_length _ rfl
  finalized := h.filter_length (fun s => s = .finalized) rfl
  numbers := hf.numbers
  first := fun _ _ heq => hf.parent_head heq
  parents := fun _ _ _ _ heq => hf.parent heq

theorem LastAt.exists_mem (h : LastAt state attempts) : ∃ a ∈ attempts, a.landingState = state := by
  obtain ⟨old, a, rfl, hstate, -⟩ := h.last
  exact ⟨a, List.mem_append_right _ (List.mem_singleton_self a), hstate⟩

theorem Shape.corresponds (h : Shape c.send attempts) (hlegal : c.isLegal = true) :
    Corresponds c attempts where
  sending := by
    intro hc
    rw [hc] at h
    exact LastAt.exists_mem h
  broadcast := by
    rintro rfl
    exact LastAt.exists_mem h
  unknown := by
    rintro rfl
    exact LastAt.exists_mem h
  unsent := by
    intro hc
    have hunsent : c.send = .unsent := hc.elim id (Combo.unsent_of_denied hlegal)
    rw [hunsent] at h
    obtain rfl : attempts = [] := h
    simp

/-- A finalized attempt means a finalized row, and leaves none live. -/
theorem Shape.finalized (h : Shape c.send attempts) (hlegal : c.isLegal = true) (ha : a ∈ attempts)
    (hfinal : a.landingState = .finalized) :
    (c = .w9 ∨ c = .w10) ∧ ∀ b ∈ attempts, b.landingState.isLive = false := by
  unfold Shape at h
  split at h
  · rw [h] at ha
    cases ha
  · rename_i state hcarried
    obtain ⟨old, last, rfl, hstate, hold⟩ := h.last
    -- the finalized attempt is the last one, so the row says finalized too
    have hlast : state = .finalized := by
      rw [mem_concat] at ha
      rcases ha with ha | rfl
      · rw [hold a ha] at hfinal
        cases hfinal
      · exact hstate.symm.trans hfinal
    subst hlast
    refine ⟨Combo.finalized_cases hlegal (carried_finalized hcarried), fun b hb => ?_⟩
    rw [mem_concat] at hb
    rcases hb with hb | rfl
    · rw [hold b hb]
      rfl
    · rw [hstate]
      rfl

section Reachable

variable (ht : Tracked db)
include ht

theorem Tracked.orderly (hp : p ∈ db.outbound.payments) (hsubject : p.subject = .withdrawal) :
    Orderly (db.outbound.attemptsFor p.id) := by
  obtain ⟨r, hr, hid⟩ := ht.owned p hp hsubject
  have hkey : Outbound.subjectKey p = (.withdrawal, r.id.uuid) := Prod.ext hsubject hid.symm
  have hfound : db.outbound.paymentBySubject .withdrawal r.id.uuid = some p :=
    (congrArg (fun k => find Outbound.subjectKey k db.outbound.payments) hkey).symm.trans
      (find_of_mem ht.valid.subjects hp)
  have hshape := ht.shape r hr
  rw [Outbound.sends_of_payment hfound] at hshape
  rw [ht.valid.attemptsFor_eq]
  exact hshape.orderly (ht.valid.lineage p.id)

/-- The one live attempt is what the query for it finds. -/
theorem Tracked.liveAttempt_eq (hp : db.outbound.paymentBySubject .withdrawal row.id.uuid = some p)
    (hlast : LastAt state (db.outbound.sends row.id.uuid)) (hlive : state.isLive = true)
    (ha : a ∈ db.outbound.attemptRows p.id) (hstate : a.landingState = state) :
    db.outbound.liveAttempt p.id = .ok (some a) := by
  rw [Outbound.sends_of_payment hp] at hlast
  obtain ⟨b, -, -, hfilter⟩ := hlast.filter_eq LandingState.isLive rfl
  rw [if_pos hlive] at hfilter
  have hab : a ∈ (db.outbound.attemptRows p.id).filter fun a => a.landingState.isLive :=
    List.mem_filter.2 ⟨ha, by rw [hstate]; exact hlive⟩
  rw [hfilter, List.mem_singleton] at hab
  subst hab
  have hmem : p.id ∈ db.outbound.payments.map OutboundPaymentRow.id :=
    List.mem_map_of_mem (mem_of_find hp)
  rw [Outbound.liveAttempt, refuse_neg (not_not.2 hmem), ok_bind, ht.valid.attemptsFor_eq, hfilter]
  rfl

/-- What a receipt is accepted for: the live attempt, or one that is finalized already,
and then nothing changes. -/
theorem Tracked.receipt {facts : MoneyFacts} {identity : RailIdentity} {receipt : ChainReceipt}
    {id : WithdrawalId} {user : UserId} {out : WithdrawalRow}
    (h : observeFinalized facts identity receipt id user db = .ok (out, db')) :
    ∃ payment attempt, db.outbound.paymentBySubject .withdrawal id.uuid = some payment ∧
      attempt ∈ db.outbound.attemptRows payment.id ∧ attempt.signature = receipt.signature ∧
      (db.outbound.liveAttempt payment.id = .ok (some attempt) ∨
        attempt.landingState = .finalized ∧ db' = db) := by
  obtain ⟨row, payment, attempt, hfound, rfl, hp, hmem, hsig, h⟩ := observeFinalized_spec h
  refine ⟨payment, attempt, hp, hmem, hsig, ?_⟩
  rcases h with ⟨hfinal, -, rfl⟩ | ⟨hcombo, saved, hsave, -⟩
  · exact Or.inr ⟨hfinal, rfl⟩
  · have hstart : ∃ state, carried row.combo.send = some state ∧ state.isLive = true := by
      rcases hcombo with hs | hs | hs <;> rw [hs] <;> exact ⟨_, rfl, rfl⟩
    obtain ⟨state, hstart, hlive⟩ := hstart
    obtain ⟨o, ho, rfl⟩ := saveAttempt_spec hsave
    have hpay := (Outbound.mem_attemptRows.1 hmem).2.symm
    have hsaved : AttemptSaved db.outbound row { attempt with landingState := .finalized } o :=
      ⟨⟨payment, hp, hpay⟩, ho⟩
    have hlast := ht.lastAt hfound hstart
    obtain ⟨-, -, current, hs, hstate⟩ := hsaved.last ht.valid hlast (Or.inl (by simp))
    rw [hs.current_eq ht.valid (Outbound.mem_attemptRows.1 hmem).1 rfl] at hstate
    exact Or.inl (ht.liveAttempt_eq hp hlast hlive hmem hstate)

end Reachable

/-- After any history the attempts of every withdrawal's payment are orderly, the payment
belongs to a row, and every row's state says where its live attempt stands. -/
theorem attempts_correspond (d : Digests) (cmds : List Command) :
    (∀ p ∈ (run (MoneyDb.step d) MoneyDb.empty cmds).outbound.payments, p.subject = .withdrawal →
      Orderly ((run (MoneyDb.step d) MoneyDb.empty cmds).outbound.attemptsFor p.id) ∧
      ∃ r ∈ (run (MoneyDb.step d) MoneyDb.empty cmds).withdrawals, r.id.uuid = p.subjectId) ∧
    ∀ r ∈ (run (MoneyDb.step d) MoneyDb.empty cmds).withdrawals,
      Corresponds r.combo
        ((run (MoneyDb.step d) MoneyDb.empty cmds).outbound.sends r.id.uuid) := by
  obtain ⟨hc, ht⟩ := tracked_run d cmds
  refine ⟨fun p hp hsubject => ⟨ht.orderly hp hsubject, ht.owned p hp hsubject⟩, fun r hr => ?_⟩
  exact (ht.shape r hr).corresponds (hc.legal r hr)

/-- After any history a finalized attempt leaves none of its payment live, and a receipt
is accepted only for the attempt with its signature being the live one, or finalized
already. -/
theorem finalized_alone (d : Digests) (cmds : List Command) :
    (∀ r ∈ (run (MoneyDb.step d) MoneyDb.empty cmds).withdrawals,
      ∀ a ∈ (run (MoneyDb.step d) MoneyDb.empty cmds).outbound.sends r.id.uuid,
        a.landingState = .finalized → (r.combo = .w9 ∨ r.combo = .w10) ∧
          ∀ b ∈ (run (MoneyDb.step d) MoneyDb.empty cmds).outbound.sends r.id.uuid,
            b.landingState.isLive = false) ∧
    ∀ facts identity receipt id user out db',
      observeFinalized facts identity receipt id user (run (MoneyDb.step d) MoneyDb.empty cmds) =
        .ok (out, db') →
      ∃ payment attempt,
        (run (MoneyDb.step d) MoneyDb.empty cmds).outbound.paymentBySubject .withdrawal id.uuid =
          some payment ∧
        attempt ∈ (run (MoneyDb.step d) MoneyDb.empty cmds).outbound.attemptRows payment.id ∧
        (∀ b ∈ (run (MoneyDb.step d) MoneyDb.empty cmds).outbound.attemptRows payment.id,
          b.signature = receipt.signature ↔ b = attempt) ∧
        ((run (MoneyDb.step d) MoneyDb.empty cmds).outbound.liveAttempt payment.id =
            .ok (some attempt) ∨
          attempt.landingState = .finalized ∧ db' = run (MoneyDb.step d) MoneyDb.empty cmds) := by
  obtain ⟨hc, ht⟩ := tracked_run d cmds
  refine ⟨fun r hr a ha hfinal => (ht.shape r hr).finalized (hc.legal r hr) ha hfinal, ?_⟩
  intro facts identity receipt id user out db' h
  obtain ⟨payment, attempt, hp, hmem, hsig, hcase⟩ := ht.receipt h
  refine ⟨payment, attempt, hp, hmem, fun b hb => ⟨fun hbsig => ?_, fun hba => hba ▸ hsig⟩, hcase⟩
  exact ht.valid.eq_of_signature (Outbound.mem_attemptRows.1 hb).1
    (Outbound.mem_attemptRows.1 hmem).1 (hbsig.trans hsig.symm)

/-! A history with a replacement: the first attempt is lost and proved not to have
landed, a receipt for it is refused, and the second one is finalized and settled. -/

def replacedFacts : MoneyFacts :=
  { now := 20, dbNow := 20
    limits := .ok
      { minMicro := 1, maxMicro := 1000, dailyMicro := 1000, autoApproveMicro := 0
        dualControlMicro := 1000, destWarmFloorMicro := 0, destWarmAgeHours := 0
        destDailyMicro := 1000, hotDailyMicro := 1000, withdrawKycTier := 0
        pauseWithdrawals := false, approveDailyCapMicro := 1000 }
    view := .ok { status := .active, kycTier := 1, selfExcludedUntil := none }
    openAmlFlags := .ok 0, sanctions := some (.clear 0 1000 "v1")
    geo := some (.clear 0 1000 "v1"), isRefundDest := false, isObservationSource := false
    receivables := [] }

def replacedIdentity : RailIdentity :=
  { genesisHash := "genesis", rpcEndpoints := ["a", "b", "c"], usdcMint := "mint", decimals := 6
    treasuryOwner := "owner", treasuryTokenAccount := "treasury", commitment := "finalized" }

def replacedSend (signature : String) (attempt : Uuid) (height : Int) : SendFacts :=
  { money := replacedFacts, identity := replacedIdentity, signed := .ok ([1], signature, 10)
    persisted := .ok (), presence := .ok .absent, height := .ok height, freshPayment := 7
    freshAttempt := attempt }

def replacedReceipt (signature : String) : ChainReceipt :=
  { signature := signature, mint := "mint", source := "treasury"
    destTokenAccount := "11111111111111111111111111111111", deltaMicro := 40
    commitment := "finalized" }

def replacedHistory (user : UserId) (id : WithdrawalId) : List Command :=
  [.post .deposit "deposit" [⟨cash .external, -100⟩, ⟨cash (.user user), 100⟩]
      (by simp [IsWithheld, cash]),
    .request { money := replacedFacts, geo := .ok .hit, sanctions := .ok .hit, lots := []
               amlCandidate := .ok (), freshId := id }
      { user := user, amountMicro := 40, dest := "11111111111111111111111111111111"
        hasClientIp := true, idempotencyKey := none },
    .decide replacedFacts .machine id user .machine,
    .decide replacedFacts (.admin "token" .finance) id user (.financeApprove "checked"),
    .send (replacedSend "first" 1 5) id user,
    .broadcast (replacedSend "first" 1 5) id user false,
    .markUnknown replacedFacts id user,
    .replaceExpired (replacedSend "second" 2 11)
      (["a", "b", "c"].map fun endpoint => ⟨endpoint, some 11, some false, false⟩) id user,
    .observeFinalized replacedFacts replacedIdentity (replacedReceipt "first") id user,
    .observeFinalized replacedFacts replacedIdentity (replacedReceipt "second") id user,
    .settle replacedFacts replacedIdentity (replacedReceipt "second") id user]

example :
    let db := run (MoneyDb.step ⟨fun _ _ dest => dest, fun _ _ => ""⟩) MoneyDb.empty
      (replacedHistory ⟨5⟩ ⟨9⟩)
    db.withdrawals.map WithdrawalRow.combo = [.w10] ∧
      db.outbound.attempts.map OutboundAttemptRow.landingState = [.definitiveFailed, .finalized] ∧
      db.ledger.balanceOf (cash (.user ⟨5⟩)) = 60 := by
  decide +kernel

end Opinions.Money
