import Opinions.Money.Holds

/-! Dual control. A large withdrawal leaves review through a proposal and a
confirmation by another principal, whatever the limits were when it was requested,
reviewed and sent: its risk reasons only grow, single approval and the machine pass
leave `amount_ge_dual` out of them, and a claim above the threshold then in force
wants it in. -/

namespace Opinions.Money

open Lib.Result Lib.Rows Lib.Run Domain.Ledger Model Store Trade

/-! ### Risk reasons -/

theorem mem_unionReasons {r : String} {snapshot current : List String} :
    r ∈ unionReasons snapshot current ↔ r ∈ snapshot ∨ r ∈ current := by
  induction current generalizing snapshot with
  | nil => simp [unionReasons]
  | cons c current ih =>
    have hcons : unionReasons snapshot (c :: current) =
        unionReasons (if c ∈ snapshot then snapshot else snapshot ++ [c]) current := rfl
    rw [hcons, ih]
    split_ifs with hc
    · constructor
      · rintro (h | h)
        · exact Or.inl h
        · exact Or.inr (List.mem_cons_of_mem c h)
      · rintro (h | h)
        · exact Or.inl h
        · rcases List.mem_cons.1 h with rfl | h
          · exact Or.inl hc
          · exact Or.inr h
    · simp [or_assoc]

theorem subset_unionReasons (snapshot current : List String) :
    snapshot ⊆ unionReasons snapshot current := fun _ h => mem_unionReasons.2 (Or.inl h)

variable {reason : String} {view : UserMoneyView} {mid : MoneyDb} {actor : AdminContext}
  {receipt : WithdrawalReceipt} {sent : Sent} {payment : OutboundPaymentRow}

theorem mem_reasonIf {p : Prop} [Decidable p] {r : String} :
    r ∈ reasonIf p reason ↔ p ∧ r = reason := by
  unfold reasonIf
  split_ifs with h <;> simp [h]

variable {limits : WithdrawLimits} {db db' : MoneyDb} {next row : WithdrawalRow} {c : Command}
  {d : Digests} {user : UserId} {id : WithdrawalId} {cmds : List Command}

/-- Below the threshold the live reasons do not ask for dual control. -/
theorem dual_not_live {facts : MoneyFacts} {live : List String}
    (hlow : ¬limits.dualControlMicro ≤ row.amountMicro)
    (h : liveReasons db facts row limits view = .ok live) : "amount_ge_dual" ∉ live := by
  simp only [liveReasons, ok_iff] at h
  obtain ⟨flags, -, warmth, -, rfl⟩ := h
  simp [mem_reasonIf, hlow]

/-! ### What a command does to rows and proposals -/

/-- Every proposal still open was open before. -/
def NoneOpened (db db' : MoneyDb) : Prop :=
  ∀ p ∈ db'.proposals, p.status = .pending → p ∈ db.proposals

theorem NoneOpened.of_eq (h : db'.proposals = db.proposals) :
    NoneOpened db db' := fun _ hp _ => h ▸ hp

/-- The row moved on with all its risk reasons. -/
structure Advanced (db : MoneyDb) (row next : WithdrawalRow) (db' : MoneyDb) : Prop where
  moved : RowMoved db row next db'
  reasons : row.riskReasons ⊆ next.riskReasons

inductive Handled (d : Digests) (db : MoneyDb) (c : Command) (db' : MoneyDb) : Prop
  | untouched (withdrawals : db'.withdrawals = db.withdrawals)
      (proposals : db'.proposals = db.proposals)
  | requested (row : WithdrawalRow) (combo : row.combo = .w1) (positive : 0 < row.amountMicro)
      (withdrawals : db'.withdrawals = db.withdrawals ++ [row])
      (proposals : db'.proposals = db.proposals)
  /-- Any other move: one that approves leaves no row asking for dual control. -/
  | single (row next : WithdrawalRow) (advanced : Advanced db row next db')
      (below : next.combo = .w2 → "amount_ge_dual" ∉ next.riskReasons)
      (proposals : NoneOpened db db')
  | proposed (row next : WithdrawalRow) (facts : MoneyFacts) (digest reason : String)
      (user : UserId) (freshId : Uuid) (advanced : Advanced db row next db')
      (start : row.combo = .w4) (stop : next.combo = .w5)
      (command : c = .decide facts (.admin digest .finance) row.id user
        (.proposeDual reason freshId))
      (proposals : db'.proposals = db.proposals ++ [proposal d facts row digest reason freshId])
  | confirmed (row next : WithdrawalRow) (facts : MoneyFacts) (digest : String) (role : AdminRole)
      (user : UserId) (p : MoneyProposal) (advanced : Advanced db row next db')
      (command : c = .decide facts (.admin digest role) row.id user .confirmDual)
      (mem : p ∈ db.proposals) (status : p.status = .pending) (subject : p.subjectId = row.id.uuid)
      (distinct : digest ≠ p.proposerTokenId) (delay : p.confirmNotBefore ≤ facts.now)
      (expiry : facts.now < p.expiresAt) (proposals : NoneOpened db db')

section Moves

variable {r : WithdrawalRow} {start : Combo}

/-- A compare-and-swap after writes that left rows and proposals alone. -/
theorem handled_of_cas {facts : MoneyFacts} {kind : String}
    (hfound : db.withdrawal row.id = some row) (hw : mid.withdrawals = db.withdrawals)
    (hp : mid.proposals = db.proposals) (hcas : finishCas facts start next kind mid = .ok db')
    (hid : next.id = row.id) (hreasons : next.riskReasons = row.riskReasons)
    (hcombo : next.combo ≠ .w2) : Handled d db c db' := by
  have hfound' : mid.withdrawal row.id = some row := by
    rwa [MoneyDb.withdrawal, hw]
  simp only [finishCas, hid, ok_iff] at hcas
  obtain ⟨swapped, hswap, rfl⟩ := hcas
  obtain ⟨-, rfl⟩ := casWithdrawal_spec hfound' hswap
  refine .single row next ⟨⟨hfound, ?_⟩, fun _ h => hreasons ▸ h⟩ (fun h => absurd h hcombo)
    (.of_eq hp)
  rw [← hw]
  rfl

theorem advanced_of_decided {facts : MoneyFacts} {actor : String}
    (hfound : db.withdrawal row.id = some row) (hw : mid.withdrawals = db.withdrawals)
    (h : decided facts start next actor mid = .ok (r, db')) (hid : next.id = row.id)
    (hreasons : row.riskReasons ⊆ next.riskReasons) :
    Advanced db row next db' ∧ db'.proposals = mid.proposals := by
  have hfound' : mid.withdrawal row.id = some row := by
    rwa [MoneyDb.withdrawal, hw]
  simp only [decided, hid, ok_iff] at h
  obtain ⟨swapped, hswap, -, rfl⟩ := h
  obtain ⟨-, rfl⟩ := casWithdrawal_spec hfound' hswap
  refine ⟨⟨⟨hfound, ?_⟩, hreasons⟩, rfl⟩
  rw [← hw]
  rfl

end Moves

theorem saveProposal_noneOpened {p : MoneyProposal} (h : db.saveProposal p = .ok db')
    (hstatus : p.status ≠ .pending) : NoneOpened db db' ∧ db'.withdrawals = db.withdrawals := by
  simp only [MoneyDb.saveProposal, ok_iff] at h
  obtain ⟨_, -, _, -, _, -, rfl⟩ := h
  refine ⟨fun q hq hopen => ?_, rfl⟩
  obtain ⟨row, hrow, rfl⟩ := mem_update.1 hq
  by_cases hid : row.id = p.id
  · rw [if_pos hid] at hopen
    exact absurd hopen hstatus
  · rwa [if_neg hid]

theorem rejectOpenProposal_noneOpened (h : rejectOpenProposal row db = .ok db') :
    NoneOpened db db' ∧ db'.withdrawals = db.withdrawals := by
  unfold rejectOpenProposal at h
  split at h
  · cases h
    exact ⟨.of_eq rfl, rfl⟩
  · exact saveProposal_noneOpened (mapError_eq_ok.1 h) (by simp)

theorem consumeApprovalCap_tables {facts : MoneyFacts}
    (h : consumeApprovalCap facts row limits db = .ok db') :
    db'.withdrawals = db.withdrawals ∧ db'.proposals = db.proposals := by
  simp only [consumeApprovalCap, ok_iff] at h
  obtain ⟨_, -, _, -, rfl⟩ := h
  exact ⟨rfl, rfl⟩

/-! ### The commands -/

section Decisions

variable {facts : MoneyFacts} {r : WithdrawalRow} {freshId : Uuid}
  (hfound : db.withdrawal row.id = some row)
include hfound

/-- The machine approves a row that has no risk reason at all. -/
theorem machine_handled (h : machine facts row db = .ok (r, db')) : Handled d db c db' := by
  simp only [machine, ok_iff] at h
  obtain ⟨_, -, limits, -, view, -, current, -, h⟩ := h
  obtain ⟨hadv, hp⟩ := advanced_of_decided hfound rfl h rfl (subset_unionReasons _ _)
  refine .single row _ hadv (fun hcombo => ?_) (.of_eq hp)
  have hempty : unionReasons row.riskReasons current = [] := by
    by_contra hne
    have hblocks : blocksAutoApprove (unionReasons row.riskReasons current) = true := by
      simpa [blocksAutoApprove] using hne
    simp only [hblocks, if_true] at hcombo
    cases hcombo
  simp [hempty]

theorem financeApprove_handled (h : financeApprove facts row actor reason db = .ok (r, db')) :
    Handled d db c db' := by
  simp only [financeApprove, not_or, ok_iff] at h
  obtain ⟨_, -, _, -, _, -, limits, -, _, ⟨hlow, hrow⟩, view, -, live, hlive, _, -, capped, hcap,
    h⟩ := h
  obtain ⟨hw, hp⟩ := consumeApprovalCap_tables hcap
  obtain ⟨hadv, hp'⟩ := advanced_of_decided hfound hw h rfl (subset_unionReasons _ _)
  refine .single row _ hadv (fun _ hdual => ?_) (.of_eq (hp'.trans hp))
  rcases mem_unionReasons.1 hdual with hdual | hdual
  · exact hrow hdual
  · exact dual_not_live hlow hlive hdual

theorem proposeDual_handled (hc : c = .decide facts actor row.id user (.proposeDual reason freshId))
    (h : proposeDual d facts row actor reason freshId db = .ok (r, db')) : Handled d db c db' := by
  simp only [proposeDual, bind_eq_ok] at h
  obtain ⟨_, hfinance, _, -, digest, hdigest, h⟩ := h
  have hactor : actor = .admin digest .finance := by
    unfold requireFinance at hfinance
    split at hfinance
    · cases hdigest
      rfl
    · cases hfinance
  split_ifs at h
  · simp only [ok_iff] at h
    obtain ⟨_, -, _, -, -, rfl⟩ := h
    exact .untouched rfl rfl
  · simp only [MoneyDb.insertProposal, ok_iff] at h
    obtain ⟨_, hcombo, proposed, ⟨_, -, _, -, _, -, _, -, rfl⟩, h⟩ := h
    obtain ⟨hadv, hp⟩ := advanced_of_decided hfound (by rfl) h rfl (List.Subset.refl _)
    exact .proposed row _ facts digest reason user freshId hadv (not_not.1 hcombo) rfl
      (hactor ▸ hc) hp

theorem confirmDual_handled (hc : c = .decide facts actor row.id user .confirmDual)
    (h : confirmDual d facts row actor db = .ok (r, db')) : Handled d db c db' := by
  simp only [confirmDual, ok_iff] at h
  obtain ⟨_, -, _, -, confirmer, hconfirmer, p, hopen, _, hdistinct, _, hdelay, _, hexpiry, _, -,
    limits, -, view, -, live, -, _, -, capped, hcap, confirmed, hconf, h⟩ := h
  have hactor : ∃ role, actor = .admin confirmer role := by
    cases actor with
    | machine => cases hconfirmer
    | admin digest role =>
      cases hconfirmer
      exact ⟨role, rfl⟩
  obtain ⟨role, rfl⟩ := hactor
  obtain ⟨hw, hp⟩ := consumeApprovalCap_tables hcap
  obtain ⟨hnone, hw'⟩ := saveProposal_noneOpened hconf (by simp)
  obtain ⟨hadv, hp'⟩ :=
    advanced_of_decided hfound (hw'.trans hw) h rfl (subset_unionReasons _ _)
  obtain ⟨hsubject, -, hpending⟩ :
      p.subjectId = row.id.uuid ∧ p.kind = approveKind ∧ p.status = .pending := by
    simpa using List.find?_some hopen
  refine .confirmed row _ facts confirmer role user p hadv hc (List.mem_of_find?_eq_some hopen)
    hpending hsubject hdistinct (not_lt.1 hdelay) (not_le.1 hexpiry) (fun q hq hq' => ?_)
  rw [hp'] at hq
  rw [← hp]
  exact hnone q hq hq'

theorem expireProposal_handled (h : expireProposal facts row db = .ok (r, db')) :
    Handled d db c db' := by
  simp only [expireProposal, ok_iff] at h
  obtain ⟨_, -, p, -, _, -, expired, hexp, h⟩ := h
  obtain ⟨hnone, hw⟩ := saveProposal_noneOpened hexp (by simp)
  obtain ⟨hadv, hp⟩ := advanced_of_decided hfound hw h rfl (List.Subset.refl _)
  refine .single row _ hadv (by rintro ⟨⟩) (fun q hq hpending => ?_)
  rw [hp] at hq
  exact hnone q hq hpending

theorem deny_handled (h : deny facts row actor reason db = .ok (r, db')) : Handled d db c db' := by
  simp only [deny, MoneyDb.applyRelease, ok_iff] at h
  obtain ⟨_, -, _, -, target, htarget, released, ⟨ledger, -, rfl⟩, rejected, hrej, h⟩ := h
  obtain ⟨hnone, hw⟩ := rejectOpenProposal_noneOpened hrej
  obtain ⟨hadv, hp⟩ := advanced_of_decided hfound hw h rfl (List.Subset.refl _)
  refine .single row _ hadv (fun hcombo => ?_) (fun q hq hpending => ?_)
  · -- a denied row is closed
    have hdenied := (Combo.denyTarget_spec htarget).2.2
    rw [show target = .w2 from hcombo] at hdenied
    cases hdenied
  · rw [hp] at hq
    exact hnone q hq hpending

end Decisions

theorem decideWithdraw_handled {facts : MoneyFacts} {cmd : DecideCmd} {r : WithdrawalRow}
    (h : decideWithdraw d facts actor id user cmd db = .ok (r, db')) :
    Handled d db (.decide facts actor id user cmd) db' := by
  simp only [decideWithdraw, bind_eq_ok] at h
  obtain ⟨row, hrow, h⟩ := h
  obtain ⟨hfound, rfl⟩ := lockedRow_spec hrow
  cases cmd with
  | machine =>
    simp only [decideRow, bind_eq_ok] at h
    obtain ⟨_, -, h⟩ := h
    exact machine_handled hfound h
  | financeApprove => exact financeApprove_handled hfound h
  | proposeDual => exact proposeDual_handled hfound rfl h
  | confirmDual => exact confirmDual_handled hfound rfl h
  | expireProposal =>
    simp only [decideRow, bind_eq_ok] at h
    obtain ⟨_, -, h⟩ := h
    exact expireProposal_handled hfound h
  | deny => exact deny_handled hfound h

section Requests

variable {cmd : RequestWithdrawCmd} {dest fingerprint : String} {r : WithdrawalReceipt}

theorem persistReceipt_handled (hw : mid.withdrawals = db.withdrawals)
    (hp : mid.proposals = db.proposals)
    (h : persistReceipt cmd fingerprint receipt mid = .ok (r, db')) : Handled d db c db' :=
  .untouched ((congrArg MoneyDb.withdrawals (persistReceipt_spec h)).trans hw)
    ((congrArg MoneyDb.proposals (persistReceipt_spec h)).trans hp)

theorem placeHold_handled {facts : RequestFacts} (hpos : 0 < cmd.amountMicro)
    (hw : mid.withdrawals = db.withdrawals) (hp : mid.proposals = db.proposals)
    (h : placeHold facts cmd dest fingerprint limits view mid = .ok (r, db')) :
    Handled d db c db' := by
  simp only [placeHold, MoneyDb.applyHold, MoneyDb.insertWithdrawal, ok_iff] at h
  obtain ⟨_, -, reasons, -, held, ⟨ledger, -, rfl⟩, inserted, ⟨_, -, rfl⟩, h⟩ := h
  refine .requested (requestedRow facts cmd dest fingerprint reasons) rfl hpos ?_
    ((congrArg MoneyDb.proposals (persistReceipt_spec h)).trans hp)
  rw [congrArg MoneyDb.withdrawals (persistReceipt_spec h), ← hw]
  rfl

theorem revalidateAndHold_handled {facts : RequestFacts} (hpos : 0 < cmd.amountMicro)
    (hw : mid.withdrawals = db.withdrawals) (hp : mid.proposals = db.proposals)
    (h : revalidateAndHold facts cmd dest fingerprint mid = .ok (r, db')) :
    Handled d db c db' := by
  simp only [revalidateAndHold, ok_iff] at h
  obtain ⟨limits, -, view, -, h⟩ := h
  split at h
  · exact persistReceipt_handled hw hp h
  · simp only [ok_iff] at h
    obtain ⟨_, -, h⟩ := h
    split_ifs at h
    · exact persistReceipt_handled hw hp h
    · simp only [bind_eq_ok] at h
      obtain ⟨within, -, h⟩ := h
      split_ifs at h
      · exact placeHold_handled hpos hw hp h
      · exact persistReceipt_handled hw hp h

theorem requestWithdraw_handled {facts : RequestFacts}
    (h : requestWithdraw d facts cmd db = .ok (r, db')) : Handled d db c db' := by
  simp only [requestWithdraw, ok_iff] at h
  obtain ⟨dest, -, _, hpos, h⟩ := h
  split at h
  · cases h
    exact .untouched rfl rfl
  · simp only [ok_iff] at h
    obtain ⟨_, -, h⟩ := h
    split at h
    · exact persistReceipt_handled rfl rfl h
    · simp only [convertForWithdraw, ok_iff] at h
      obtain ⟨converted, ⟨ledger, -, rfl⟩, h⟩ := h
      exact revalidateAndHold_handled (not_le.1 hpos) (by rfl) (by rfl) h

end Requests

section Sends

variable {facts : SendFacts}

theorem claimPayment_tables (h : claimPayment facts row db = .ok (payment, db')) :
    db'.withdrawals = db.withdrawals ∧ db'.proposals = db.proposals := by
  unfold claimPayment at h
  split at h
  · cases h
    exact ⟨rfl, rfl⟩
  · simp only [ok_iff] at h
    obtain ⟨o, -, -, rfl⟩ := h
    exact ⟨rfl, rfl⟩

theorem claimW2_handled (hfound : db.withdrawal row.id = some row)
    (h : claimW2 facts row db = .ok (sent, db')) : Handled d db c db' := by
  simp only [claimW2, ok_iff] at h
  obtain ⟨⟨payment, paid⟩, hpaid, _, -, _, -, signed, -, inserted, hins, _, -, swapped, hswap, -,
    rfl⟩ := h
  obtain ⟨hw, hp⟩ := claimPayment_tables hpaid
  obtain ⟨o, -, rfl⟩ := insertAttempt_spec hins
  have hcas : finishCas facts.money .w2 { row with combo := .w3 } "send-claim"
      { paid with outbound := o } =
        .ok (swapped.appendEvent facts.money row.id "send-claim" "machine" none) := by
    simp only [finishCas, hswap]
    rfl
  exact handled_of_cas hfound (by exact hw) (by exact hp) hcas rfl rfl (by rintro ⟨⟩)

theorem replaceAttempt_handled {old : OutboundAttemptRow} (hfound : db.withdrawal row.id = some row)
    (h : replaceAttempt facts row payment old db = .ok (sent, db')) : Handled d db c db' := by
  simp only [replaceAttempt, ok_iff] at h
  obtain ⟨failed, hfailed, signed, -, _, -, inserted, hins, _, -, swapped, hcas, -, rfl⟩ := h
  obtain ⟨o, -, rfl⟩ := saveAttempt_spec hfailed
  obtain ⟨o', -, rfl⟩ := insertAttempt_spec hins
  refine handled_of_cas hfound ?_ ?_ hcas rfl rfl (by rintro ⟨⟩) <;> rfl

theorem SendStep.handled {proof : Option (WithdrawalId × List QuorumObservation × List String)}
    (h : SendStep proof db db') : Handled d db c db' := by
  cases h with
  | same nothing => exact nothing ▸ .untouched rfl rfl
  | landed facts row next start kind p a state saved hs owner edge kept save cas =>
    obtain ⟨o, -, rfl⟩ := saveAttempt_spec save
    refine handled_of_cas hs.found ?_ ?_ cas ?_ ?_ ?_
    · rfl
    · rfl
    · rw [kept]
    · rw [kept]
    · intro hcombo
      rw [hcombo] at edge
      cases edge
  | noted _ _ _ _ _ _ _ save =>
    obtain ⟨o, -, rfl⟩ := saveAttempt_spec save
    exact .untouched rfl rfl
  | claimed _ _ _ found claim => exact claimW2_handled found claim
  | replaced _ _ _ _ _ hs _ _ replace => exact replaceAttempt_handled hs.found replace
  | failed _ row _ _ _ _ _ _ hs _ _ _ release save cas =>
    simp only [MoneyDb.applyRelease, ok_iff] at release
    obtain ⟨ledger, -, rfl⟩ := release
    obtain ⟨o, -, rfl⟩ := saveAttempt_spec save
    refine handled_of_cas hs.found ?_ ?_ cas rfl rfl (by rintro ⟨⟩) <;> rfl
  | settled _ row _ _ _ found settle cas =>
    simp only [MoneyDb.applySettle, ok_iff] at settle
    obtain ⟨ledger, -, rfl⟩ := settle
    refine handled_of_cas found ?_ ?_ cas rfl rfl (by rintro ⟨⟩) <;> rfl

end Sends

theorem MoneyDb.step_handled (h : db.step d c = .ok db') : Handled d db c db' := by
  cases MoneyDb.step_stepped h with
  | request done => exact requestWithdraw_handled done
  | decide done => exact decideWithdraw_handled done
  | send done => exact done.handled
  | refund | post => exact .untouched rfl rfl

/-! ### Risk reasons only grow -/

/-- Every row is still there with all its risk reasons. -/
def ReasonsKept (db db' : MoneyDb) : Prop :=
  ∀ row ∈ db.withdrawals, ∃ row' ∈ db'.withdrawals,
    row'.id = row.id ∧ row.riskReasons ⊆ row'.riskReasons

theorem ReasonsKept.refl (db : MoneyDb) : ReasonsKept db db :=
  fun row hrow => ⟨row, hrow, rfl, List.Subset.refl _⟩

theorem ReasonsKept.trans {a b c : MoneyDb} (hab : ReasonsKept a b) (hbc : ReasonsKept b c) :
    ReasonsKept a c := by
  intro row hrow
  obtain ⟨row', hrow', hid, hsub⟩ := hab row hrow
  obtain ⟨row'', hrow'', hid', hsub'⟩ := hbc row' hrow'
  exact ⟨row'', hrow'', hid'.trans hid, List.Subset.trans hsub hsub'⟩

/-- With one row per id, the moved row is the only one under its id. -/
theorem Advanced.reasonsKept (hids : (db.withdrawals.map WithdrawalRow.id).Nodup)
    (h : Advanced db row next db') : ReasonsKept db db' := by
  intro w hw
  rw [h.moved.withdrawals]
  by_cases hid : w.id = row.id
  · refine ⟨MoneyDb.written next w, mem_update.2 ⟨w, hw, if_pos hid⟩, rfl, ?_⟩
    obtain rfl : w = row := by
      have hfind := find_of_mem hids hw
      rw [hid] at hfind
      exact Option.mem_unique hfind h.moved.found
    exact h.reasons
  · exact ⟨w, mem_update.2 ⟨w, hw, if_neg hid⟩, rfl, List.Subset.refl _⟩

theorem Handled.reasonsKept (hids : (db.withdrawals.map WithdrawalRow.id).Nodup)
    (h : Handled d db c db') : ReasonsKept db db' := by
  cases h with
  | untouched withdrawals =>
    intro row hrow
    exact ⟨row, withdrawals ▸ hrow, rfl, List.Subset.refl _⟩
  | requested row _ _ withdrawals =>
    intro w hw
    rw [withdrawals]
    exact ⟨w, List.mem_append_left _ hw, rfl, List.Subset.refl _⟩
  | single _ _ advanced | proposed _ _ _ _ _ _ _ advanced | confirmed _ _ _ _ _ _ _ advanced =>
    exact advanced.reasonsKept hids

theorem reasonsKept_run (d : Digests) (hc : Conserved db) (later : List Command) :
    ReasonsKept db (run (MoneyDb.step d) db later) := by
  have h : Conserved (run (MoneyDb.step d) db later) ∧
      ReasonsKept db (run (MoneyDb.step d) db later) := by
    refine run_preserves (P := fun db' => Conserved db' ∧ ReasonsKept db db') ?_ ⟨hc, .refl db⟩
    rintro c - s s' ⟨hs, hkept⟩ hstep
    exact ⟨hs.effect (MoneyDb.step_effect hstep),
      hkept.trans ((MoneyDb.step_handled hstep).reasonsKept hs.ids)⟩
  exact h.2

/-! ### Two principals -/

/-- In the history `cmds`, an accepted command after `before` opened a proposal for the
withdrawal. -/
def Proposed (d : Digests) (cmds before : List Command) (id : WithdrawalId) (digest : String)
    (proposedAt : Instant) : Prop :=
  ∃ facts user reason freshId, facts.now = proposedAt ∧
    ((run (MoneyDb.step d) MoneyDb.empty before).withdrawal id).map WithdrawalRow.combo =
      some .w4 ∧
    AcceptedAfter (MoneyDb.step d) MoneyDb.empty cmds before
      (.decide facts (.admin digest .finance) id user (.proposeDual reason freshId))

/-- In the history `cmds`, one principal proposed the withdrawal, and later another one
confirmed it, after the proposal's delay and before its expiry. -/
def DualApproved (d : Digests) (cmds : List Command) (id : WithdrawalId) : Prop :=
  ∃ before between facts role user proposer confirmer proposedAt,
    Proposed d between before id proposer proposedAt ∧
    AcceptedAfter (MoneyDb.step d) MoneyDb.empty cmds between
      (.decide facts (.admin confirmer role) id user .confirmDual) ∧
    confirmer ≠ proposer ∧ proposedAt + dualDelay ≤ facts.now ∧
    facts.now < proposedAt + dualDelay + confirmWindow

theorem Proposed.append {before : List Command} {digest : String} {proposedAt : Instant}
    (h : Proposed d cmds before id digest proposedAt) (more : List Command) :
    Proposed d (cmds ++ more) before id digest proposedAt := by
  obtain ⟨facts, user, reason, freshId, hnow, hstart, haccepted⟩ := h
  exact ⟨facts, user, reason, freshId, hnow, hstart, haccepted.append more⟩

theorem DualApproved.append (h : DualApproved d cmds id) (more : List Command) :
    DualApproved d (cmds ++ more) id := by
  obtain ⟨before, between, facts, role, user, proposer, confirmer, proposedAt, hprop, hconf, h⟩ := h
  exact ⟨before, between, facts, role, user, proposer, confirmer, proposedAt, hprop,
    hconf.append more, h⟩

/-- What the history says of the open proposals and of the approved rows. -/
structure Controlled (d : Digests) (cmds : List Command) (db : MoneyDb) : Prop where
  opened : ∀ p ∈ db.proposals, p.status = .pending → ∃ before proposedAt,
    Proposed d cmds before ⟨p.subjectId⟩ p.proposerTokenId proposedAt ∧
    p.confirmNotBefore = proposedAt + dualDelay ∧
    p.expiresAt = proposedAt + dualDelay + confirmWindow
  approved : ∀ row ∈ db.withdrawals, row.combo = .w2 → "amount_ge_dual" ∈ row.riskReasons →
    DualApproved d cmds row.id

namespace Controlled

theorem append (h : Controlled d cmds db) (more : List Command) :
    Controlled d (cmds ++ more) db := by
  refine ⟨fun p hp hpending => ?_, fun row hrow hcombo hdual => ?_⟩
  · obtain ⟨before, proposedAt, hprop, htimes⟩ := h.opened p hp hpending
    exact ⟨before, proposedAt, hprop.append more, htimes⟩
  · exact (h.approved row hrow hcombo hdual).append more

/-- Rows other than the one that moved are accounted for already. -/
theorem approved_of_moved (h : Controlled d cmds db)
    (hids : (db.withdrawals.map WithdrawalRow.id).Nodup) (hmoved : RowMoved db row next db')
    (hnext : next.combo = .w2 → "amount_ge_dual" ∈ next.riskReasons → DualApproved d cmds row.id) :
    ∀ w ∈ db'.withdrawals, w.combo = .w2 → "amount_ge_dual" ∈ w.riskReasons →
      DualApproved d cmds w.id := by
  intro w hw hcombo hdual
  rcases hmoved.mem hids hw with rfl | ⟨hw, -⟩
  · exact hnext hcombo hdual
  · exact h.approved w hw hcombo hdual

theorem step (h : Controlled d cmds (run (MoneyDb.step d) MoneyDb.empty cmds))
    (hstep : (run (MoneyDb.step d) MoneyDb.empty cmds).step d c = .ok db') :
    Controlled d (cmds ++ [c]) db' := by
  have hids := (conserved_run d cmds).ids
  have haccepted := acceptedAfter_last hstep
  have h' := h.append [c]
  cases MoneyDb.step_handled hstep with
  | untouched withdrawals proposals =>
    exact ⟨proposals ▸ h'.opened, withdrawals ▸ h'.approved⟩
  | requested row combo _ withdrawals proposals =>
    refine ⟨proposals ▸ h'.opened, fun w hw hcombo hdual => ?_⟩
    rw [withdrawals, mem_concat] at hw
    rcases hw with hw | rfl
    · exact h'.approved w hw hcombo hdual
    · rw [combo] at hcombo
      cases hcombo
  | single row next advanced below proposals =>
    exact ⟨fun p hp hpending => h'.opened p (proposals p hp hpending) hpending,
      h'.approved_of_moved hids advanced.moved fun hcombo hdual => absurd hdual (below hcombo)⟩
  | proposed row next facts digest reason user freshId advanced start stop command proposals =>
    subst command
    refine ⟨fun p hp hpending => ?_, h'.approved_of_moved hids advanced.moved fun hcombo _ => ?_⟩
    · rw [proposals, mem_concat] at hp
      rcases hp with hp | rfl
      · exact h'.opened p hp hpending
      · refine ⟨cmds, facts.now, ⟨facts, user, reason, freshId, rfl, ?_, haccepted⟩, rfl, rfl⟩
        change (MoneyDb.withdrawal _ row.id).map _ = _
        rw [advanced.moved.found, Option.map_some, start]
    · rw [stop] at hcombo
      cases hcombo
  | confirmed row next facts digest role user p advanced command mem status subject distinct delay
      expiry proposals =>
    subst command
    refine ⟨fun q hq hpending => h'.opened q (proposals q hq hpending) hpending,
      h'.approved_of_moved hids advanced.moved fun _ _ => ?_⟩
    obtain ⟨before, proposedAt, hprop, hdelay, hexpiry⟩ := h.opened p mem status
    rw [subject] at hprop
    exact ⟨before, cmds, facts, role, user, p.proposerTokenId, digest, proposedAt, hprop, haccepted,
      distinct, hdelay ▸ delay, hexpiry ▸ expiry⟩

end Controlled

theorem controlled_run (d : Digests) (cmds : List Command) :
    Controlled d cmds (run (MoneyDb.step d) MoneyDb.empty cmds) := by
  refine run_remembers (P := Controlled d) ?_ ?_ ?_ cmds
  · exact ⟨by simp [MoneyDb.empty], by simp [MoneyDb.empty]⟩
  · intro cmds c db' h hstep
    exact h.step hstep
  · intro cmds c h
    exact h.append [c]

/-- A claim above the threshold then in force is of a row that asks for dual control. -/
theorem sendWithdraw_dual {facts : SendFacts} (h : sendWithdraw facts id user db = .ok (sent, db'))
    (hrow : db.withdrawal id = some row) (hcombo : row.combo = .w2)
    (hlimits : facts.money.limits = .ok limits) (hlarge : limits.dualControlMicro ≤ row.amountMicro) :
    "amount_ge_dual" ∈ row.riskReasons := by
  simp only [sendWithdraw, bind_eq_ok] at h
  obtain ⟨row', hrow', h⟩ := h
  obtain ⟨hfound, rfl⟩ := lockedRow_spec hrow'
  obtain rfl : row' = row := Option.mem_unique hfound hrow
  rw [hcombo, if_neg (by decide), if_neg (by decide), if_neg (by decide)] at h
  simp only [bind_eq_ok] at h
  obtain ⟨_, -, _, hallowed, -⟩ := h
  simp only [ensureSendAllowed, hlimits, Except.ok.injEq, tightened, exists_eq_left',
    ok_iff] at hallowed
  obtain ⟨view, -, _, -, _, -, _, -, _, -, flags, -, _, -, _, -, _, -, _, -, _, -, _, hdual, -⟩ :=
    hallowed
  by_contra hnot
  exact hdual ⟨hlarge, hnot⟩

/-- Dual control over every history. -/
theorem large_claims_dual_controlled (d : Digests) (cmds : List Command) :
    (∀ (facts : SendFacts) (id : WithdrawalId) (user : UserId) (row : WithdrawalRow)
      (limits : WithdrawLimits) (db' : MoneyDb),
      (run (MoneyDb.step d) MoneyDb.empty cmds).step d (.send facts id user) = .ok db' →
      (run (MoneyDb.step d) MoneyDb.empty cmds).withdrawal id = some row → row.combo = .w2 →
      facts.money.limits = .ok limits → limits.dualControlMicro ≤ row.amountMicro →
      DualApproved d cmds id) ∧
    ∀ later, ReasonsKept (run (MoneyDb.step d) MoneyDb.empty cmds)
      (run (MoneyDb.step d) MoneyDb.empty (cmds ++ later)) := by
  refine ⟨fun facts id user row limits db' hsend hrow hcombo hlimits hlarge => ?_, fun later => ?_⟩
  · obtain ⟨sent, hsend⟩ := map_snd_eq_ok.1 hsend
    have hdual := sendWithdraw_dual hsend hrow hcombo hlimits hlarge
    have happroved := (controlled_run d cmds).approved row (mem_of_find hrow) hcombo hdual
    rwa [key_of_find hrow] at happroved
  · rw [run_append]
    exact reasonsKept_run d (conserved_run d cmds) later

/-! A withdrawal of 40 with the threshold at 30: it is held, proposed, confirmed a quarter
of an hour later by another token, and claimed. -/

def dualFacts (now : Instant) : MoneyFacts :=
  { now := now, dbNow := now
    limits := .ok
      { minMicro := 1, maxMicro := 1000, dailyMicro := 1000, autoApproveMicro := 0
        dualControlMicro := 30, destWarmFloorMicro := 0, destWarmAgeHours := 0
        destDailyMicro := 1000, hotDailyMicro := 1000, withdrawKycTier := 0
        pauseWithdrawals := false, approveDailyCapMicro := 1000 }
    view := .ok { status := .active, kycTier := 1, selfExcludedUntil := none }
    openAmlFlags := .ok 0, sanctions := some (.clear 0 (hours 24) "v1")
    geo := some (.clear 0 (hours 24) "v1"), isRefundDest := false, isObservationSource := false
    receivables := [] }

theorem dual_deposit_plain (user : UserId) :
    ∀ e ∈ ([⟨cash .external, -100⟩, ⟨cash (.user user), 100⟩] : List (Entry AccountKey)),
      ¬IsWithheld e.account := by
  simp [IsWithheld, cash]

def dualHistory (user : UserId) (id : WithdrawalId) : List Command :=
  [.post .deposit "deposit" [⟨cash .external, -100⟩, ⟨cash (.user user), 100⟩]
      (dual_deposit_plain user),
    .request { money := dualFacts 20, geo := .ok .hit, sanctions := .ok .hit, lots := []
               amlCandidate := .ok (), freshId := id }
      { user := user, amountMicro := 40, dest := "11111111111111111111111111111111"
        hasClientIp := true, idempotencyKey := none },
    .decide (dualFacts 20) .machine id user .machine,
    .decide (dualFacts 20) (.admin "first" .finance) id user (.proposeDual "checked" 3),
    .decide (dualFacts 21) (.admin "second" .superadmin) id user .confirmDual,
    .decide (dualFacts (20 + minutes 15)) (.admin "second" .superadmin) id user .confirmDual]

def dualSend : SendFacts :=
  { money := dualFacts (20 + minutes 16)
    identity := { genesisHash := "genesis", rpcEndpoints := ["a", "b", "c"], usdcMint := "mint"
                  decimals := 6, treasuryOwner := "owner", treasuryTokenAccount := "treasury"
                  commitment := "finalized" }
    signed := .ok ([1], "signature", 10), persisted := .ok (), presence := .ok .absent
    height := .ok 5, freshPayment := 7, freshAttempt := 1 }

def dualDigests : Digests := ⟨fun _ _ dest => dest, fun _ _ => ""⟩

def dualDb : MoneyDb := run (MoneyDb.step dualDigests) MoneyDb.empty (dualHistory ⟨5⟩ ⟨9⟩)

theorem proposed_claim_dual_controlled :
    (∃ row ∈ dualDb.withdrawals, row.combo = .w2 ∧ row.amountMicro = 40) ∧
      DualApproved dualDigests (dualHistory ⟨5⟩ ⟨9⟩) ⟨9⟩ := by
  have hrow : ∃ row, dualDb.withdrawal ⟨9⟩ = some row ∧ row.combo = .w2 ∧ row.amountMicro = 40 := by
    have h : (dualDb.withdrawal ⟨9⟩).map (fun row => (row.combo, row.amountMicro)) =
        some (.w2, 40) := by
      decide +kernel
    obtain ⟨row, hrow, heq⟩ := Option.map_eq_some_iff.1 h
    obtain ⟨hcombo, hamount⟩ := Prod.mk.inj heq
    exact ⟨row, hrow, hcombo, hamount⟩
  have hsend : ∃ db', dualDb.step dualDigests (.send dualSend ⟨9⟩ ⟨5⟩) = .ok db' := by
    have h : (dualDb.step dualDigests (.send dualSend ⟨9⟩ ⟨5⟩)).isOk = true := by decide +kernel
    exact exists_of_isOk h
  obtain ⟨row, hrow, hcombo, hamount⟩ := hrow
  obtain ⟨db', hsend⟩ := hsend
  have happlied := (large_claims_dual_controlled dualDigests (dualHistory ⟨5⟩ ⟨9⟩)).1 dualSend ⟨9⟩ ⟨5⟩
    row
  rw [← dualDb] at happlied
  refine ⟨⟨row, mem_of_find hrow, hcombo, hamount⟩, happlied _ db' hsend hrow hcombo rfl ?_⟩
  rw [hamount]
  decide

end Opinions.Money
