import Opinions.Integrity.Snapshot

/-! Whether the sweep tells the truth. In a reachable snapshot all seven money identities
hold of the rows. The report looks at the balances alone, so it agrees exactly when no
deposit is open and no withdrawal holds funds: otherwise it calls a healthy store broken. -/

namespace Opinions.Integrity

open Lib.Rows Lib.Run Domain.Ledger Model Store Trade Money Deposit Credit

def SoleOwner (owner : OwnerRef) : Prop := ∀ o : OwnerRef, o.ownerType = owner.ownerType → o = owner

theorem soleOwner_withheld : SoleOwner .withheld := fun o h => by cases o <;> first | rfl | cases h

theorem soleOwner_suspense : SoleOwner .depositSuspense := fun o h => by
  cases o <;> first | rfl | cases h

theorem soleOwner_reserve : SoleOwner .bonusReserve := fun o h => by
  cases o <;> first | rfl | cases h

variable {l : Ledger} {identity key : String}

/-- What the sweep sums for a sole owner is the balance of its cash account. -/
theorem sumOwner_accountBalances (hl : Journal l) {owner : OwnerRef} (hsole : SoleOwner owner) :
    sumOwner (accountBalances l) owner.ownerType = l.balanceOf (cash owner) := by
  have hrow : ∀ r ∈ l.balances.rows,
      (r.owner = owner.ownerType ∧ r.currency = .usdc) ↔ r.id = cash owner := by
    intro r hr
    obtain ⟨howner, hcurrency⟩ := l.keyed r hr
    rw [howner, hcurrency]
    constructor
    · rintro ⟨ho, hc⟩
      have hid : r.id = ⟨r.id.owner, r.id.currency⟩ := rfl
      rw [hid, hsole _ ho, hc]
      rfl
    · intro hid
      rw [hid]
      exact ⟨rfl, rfl⟩
  have hsum : sumOwner (accountBalances l) owner.ownerType =
      (l.balances.rows.map fun r => if r.id = cash owner then
        (l.txns.map fun t => delta t.entries r.id).sum else 0).sum := by
    rw [sumOwner, sum_filter, accountBalances, List.map_map]
    refine congrArg List.sum (List.map_congr_left fun r hr => ?_)
    simp only [Function.comp_apply, decide_eq_true_eq, hrow r hr]
  rw [hsum, sum_single l.balances.nodup, Ledger.balanceOf, Balances.balance, Balances.account]
  cases hfind : find Account.id (cash owner) l.balances.rows with
  | none => rfl
  | some r =>
    have hbalance := hl.balanceOf r.id
    have hid : r.id = cash owner := key_of_find hfind
    rw [Ledger.balanceOf, Balances.balance, Balances.account, hid, hfind] at hbalance
    rw [Option.elim_some, hid]
    exact hbalance.symm

@[simp] theorem result_pass {detail : String} {pass : Bool} :
    (result identity pass detail).pass = pass := rfl

@[simp] theorem noneBroken_pass {broken : List String} :
    (noneBroken identity broken).pass = true ↔ broken = [] := by
  simp [noneBroken]

variable {r : WithdrawalRow}

section Healthy

variable {s : Snapshot} (h : Healthy s)
include h

theorem withheld_eq : s.facts.withheldBalanceMicro = s.ledger.balanceOf (cash .withheld) :=
  sumOwner_accountBalances h.journal soleOwner_withheld

theorem suspense_eq : s.facts.suspenseBalanceMicro = s.ledger.balanceOf suspense :=
  sumOwner_accountBalances h.journal soleOwner_suspense

theorem reserve_eq : s.facts.bonusReserveBalanceMicro = s.ledger.balanceOf reserve :=
  sumOwner_accountBalances h.journal soleOwner_reserve

omit h in
theorem isOpenObservation_eq (r : DepositMachineRow) :
    (liability r).isOpenObservation = isSuspenseLiability r.status := by
  unfold liability DepositLiability.isOpenObservation
  cases r.status <;> rfl

omit h in
theorem openLiabilities_facts : openLiabilities s.facts =
    (s.deposits.map fun r => if isSuspenseLiability r.status then r.amount else 0).sum := by
  have hfacts : s.facts.deposits = s.deposits.map liability := rfl
  rw [openLiabilities, hfacts, sum_filter, List.map_map]
  refine congrArg List.sum (List.map_congr_left fun r _ => ?_)
  rw [Function.comp_apply, isOpenObservation_eq]
  rfl

theorem suspenseSigma_pass : (depositSuspenseSigma s.facts).pass = true :=
  decide_eq_true ((suspense_eq h).trans (h.suspense.trans openLiabilities_facts.symm))

omit h in
theorem promised_facts : promisedMicro s.facts = remainingRealMoneyPromise s.lots := by
  have hfacts : s.facts.lots = s.lots.map coverage := rfl
  have howed : ∀ lot : CreditLotRow,
      decide ((!(coverage lot).converted) = true ∧ (coverage lot).grantClass = "real_money") =
        lot.owed := by
    intro lot
    cases hclass : lot.grantClass <;> cases hconverted : lot.convertedAt <;>
      simp [coverage, CreditLotRow.owed, grantClassText, hclass, hconverted]
  rw [promisedMicro, hfacts, sum_filter, List.map_map, remainingRealMoneyPromise_eq]
  refine congrArg List.sum (List.map_congr_left fun lot _ => ?_)
  rw [Function.comp_apply, howed]
  rfl

theorem reserveCoverage_pass : (bonusReserveCoverage s.facts).pass = true := by
  refine decide_eq_true ?_
  rw [promised_facts, reserve_eq h]
  exact h.covered

/-- The amount a booked transaction put into the withheld account. -/
theorem withheldBy_booked {t : LedgerTxn} (ht : t ∈ s.ledger.txns) :
    withheldBy s.ledger t.key = delta t.entries (cash .withheld) := by
  rw [withheldBy, Ledger.txnByKey, find_of_mem h.journal.keys ht]
  rfl

/-- The sweep's notion of an active hold is the machine's. -/
theorem hasActiveHold_eq (hr : r ∈ s.withdrawals) :
    (attribution s.ledger r).hasActiveHold = r.combo.hasActiveHold := by
  have hterminal : (attribution s.ledger r).isTerminal = !r.combo.hasActiveHold := by
    simp only [WithdrawalAttribution.isTerminal, attribution, Combo.hasActiveHold]
    cases r.combo.status <;> rfl
  cases hold : r.combo.hasActiveHold with
  | false =>
    rw [hold] at hterminal
    simp [WithdrawalAttribution.hasActiveHold, hterminal]
  | true =>
    obtain ⟨hrelease, hsettle⟩ := (h.accounted r hr).txns_none hold
    have hsend : r.combo.send ≠ .definitiveFailed := by
      have hlegal := (Combo.isLegal_iff _).1 (h.legal r hr)
      intro hfailed
      simp only [Combo.table, List.mem_cons, List.not_mem_nil, or_false] at hlegal
      rcases hlegal with hc | hc | hc | hc | hc | hc | hc | hc | hc | hc | hc | hc | hc | hc | hc <;>
        rw [hc] at hfailed hold <;> contradiction
    rw [hold] at hterminal
    rw [WithdrawalAttribution.hasActiveHold, hterminal]
    exact decide_eq_true ⟨hsend, hsettle, hrelease, rfl⟩

theorem activeMicro_facts : activeMicro s.facts = (s.withdrawals.map heldMicro).sum := by
  have hfacts : s.facts.withdrawals = s.withdrawals.map (attribution s.ledger) := rfl
  rw [activeMicro, hfacts, sum_filter, List.map_map]
  refine congrArg List.sum (List.map_congr_left fun r hr => ?_)
  rw [Function.comp_apply, hasActiveHold_eq h hr]
  rfl

theorem holdMatchesActive_pass : (withdrawalHoldMatchesActive s.facts).pass = true :=
  decide_eq_true ((withheld_eq h).trans (h.withheld.trans (activeMicro_facts h).symm))

theorem holdExact_pass : (withdrawalHoldExact s.facts).pass = true := by
  rw [withdrawalHoldExact, noneBroken_pass, List.map_eq_nil_iff, List.filter_eq_nil_iff]
  intro row hrow
  obtain ⟨r, hr, rfl⟩ := List.mem_map.1 hrow
  have hhold : withheldBy s.ledger r.holdTx = r.amountMicro := by
    have hbooked := withheldBy_booked h (h.endings.held r hr)
    simpa [holdTxn, cash] using hbooked
  rw [decide_eq_true_eq]
  exact fun hbroken => hbroken.2 hhold

theorem withheldBy_release (hbooked : releaseTxn r key ∈ s.ledger.txns) :
    withheldBy s.ledger key = -r.amountMicro := by
  have hentries := withheldBy_booked h hbooked
  simpa [releaseTxn, cash] using hentries

theorem withheldBy_settle (hbooked : settleTxn r key ∈ s.ledger.txns) :
    withheldBy s.ledger key = -r.amountMicro := by
  have hentries := withheldBy_booked h hbooked
  simpa [settleTxn, cash] using hentries

theorem terminalXor_pass : (withdrawalTerminalXor s.facts).pass = true := by
  rw [withdrawalTerminalXor, noneBroken_pass, List.map_eq_nil_iff, List.filter_eq_nil_iff]
  intro row hrow hbad
  obtain ⟨hrow, hterminal⟩ := List.mem_filter.1 hrow
  obtain ⟨r, hr, rfl⟩ := List.mem_map.1 hrow
  have hpos := h.requested r hr
  cases h.accounted r hr with
  | active hold =>
    have hactive := hasActiveHold_eq h hr
    rw [hold, WithdrawalAttribution.hasActiveHold, hterminal] at hactive
    simp at hactive
  | released key _ release settle booked =>
    have hamount := withheldBy_release h booked
    simp [WithdrawalAttribution.endsBadly, attribution, release, settle, hamount] at hbad
    omega
  | settled key _ release settle booked =>
    have hamount := withheldBy_settle h booked
    simp [WithdrawalAttribution.endsBadly, attribution, release, settle, hamount] at hbad
    omega

omit h in
/-- Distinct endings are all new when they are met. -/
theorem foldl_noteEnding {endings : List (String × String)}
    {acc : List (String × String) × List String} (hnd : (acc.1 ++ endings).Nodup) :
    (endings.foldl noteEnding acc).2 = acc.2 := by
  induction endings generalizing acc with
  | nil => rfl
  | cons ending endings ih =>
    have hnew : ending ∉ acc.1 := fun hmem =>
      (List.nodup_append.1 hnd).2.2 ending hmem ending List.mem_cons_self rfl
    have hstep : noteEnding acc ending = (acc.1 ++ [ending], acc.2) := if_neg hnew
    rw [List.foldl_cons, hstep, ih]
    simpa using hnd

omit h in
theorem mem_endings {ending : String × String} (hmem : ending ∈ (attribution l r).endings) :
    ending.1 = "settle" ∧ r.settleTx = some ending.2 ∨
      ending.1 = "release" ∧ r.releaseTx = some ending.2 := by
  unfold WithdrawalAttribution.endings at hmem
  split_ifs at hmem
  · rcases List.mem_append.1 hmem with hmem | hmem
    · obtain ⟨tx, htx, rfl⟩ := List.mem_map.1 hmem
      exact Or.inl ⟨rfl, Option.mem_toList.1 htx⟩
    · obtain ⟨tx, htx, rfl⟩ := List.mem_map.1 hmem
      exact Or.inr ⟨rfl, Option.mem_toList.1 htx⟩
  · cases hmem

omit h in
theorem endings_nodup (row : WithdrawalAttribution) : row.endings.Nodup := by
  unfold WithdrawalAttribution.endings
  split_ifs
  · cases row.settleTx <;> cases row.releaseTx <;> simp
  · exact List.nodup_nil

theorem noDuplicateTerminal_pass : (withdrawalNoDuplicateTerminal s.facts).pass = true := by
  rw [withdrawalNoDuplicateTerminal, noneBroken_pass]
  refine foldl_noteEnding ?_
  have hfacts : s.facts.withdrawals = s.withdrawals.map (attribution s.ledger) := rfl
  rw [List.nil_append, hfacts, List.flatMap_map, List.nodup_flatMap]
  refine ⟨fun r _ => endings_nodup _, ?_⟩
  have hrows : s.withdrawals.Pairwise fun r r' => r.id ≠ r'.id := List.pairwise_map.1 h.ids
  refine hrows.imp_of_mem fun {r r'} hr hr' hne ending hmem hmem' => hne ?_
  rcases mem_endings hmem with ⟨hkind, hkey⟩ | ⟨hkind, hkey⟩ <;>
    rcases mem_endings hmem' with ⟨hkind', hkey'⟩ | ⟨hkind', hkey'⟩
  · exact h.endings.settles r hr r' hr' _ hkey hkey'
  · exact absurd (hkind.symm.trans hkind') (by decide)
  · exact absurd (hkind.symm.trans hkind') (by decide)
  · exact h.endings.releases r hr r' hr' _ hkey hkey'

omit h in
theorem landingText_finalized (state : LandingState) :
    landingText state = "finalized" ↔ state = .finalized := by
  cases state <;> decide

omit h in
theorem finalizedCount_facts (p : OutboundPaymentRow) (attempts : List OutboundAttemptRow) :
    finalizedCount (attempts.map (attemptFact p)) =
      (attempts.filter fun a => a.landingState = .finalized).length := by
  rw [finalizedCount, List.filter_map, List.length_map]
  congr 1
  refine List.filter_congr fun a _ => ?_
  simp [attemptFact, landingText_finalized]

omit h in
/-- Choosing facts by their payment is choosing payments. -/
theorem filter_attemptFacts {o : Outbound} (p : OutboundAttemptFact → Bool)
    (q : OutboundPaymentRow → Prop) [DecidablePred q]
    (hp : ∀ payment a, p (attemptFact payment a) = decide (q payment)) :
    (attemptFacts o).filter p = o.payments.flatMap fun payment =>
      if q payment then
        if payment.subject = .withdrawal then (o.attemptRows payment.id).map (attemptFact payment)
        else []
      else [] := by
  rw [attemptFacts, List.filter_flatMap]
  congr 1
  funext payment
  by_cases hq : q payment
  · rw [if_pos hq, List.filter_eq_self.2]
    intro fact hfact
    split_ifs at hfact
    · obtain ⟨a, -, rfl⟩ := List.mem_map.1 hfact
      rw [hp, decide_eq_true hq]
    · cases hfact
  · rw [if_neg hq, List.filter_eq_nil_iff.2]
    intro fact hfact
    split_ifs at hfact
    · obtain ⟨a, -, rfl⟩ := List.mem_map.1 hfact
      rw [hp, decide_eq_false hq]
      exact Bool.false_ne_true
    · cases hfact

theorem attemptsOfPayment_finalized (payment : Uuid) :
    finalizedCount (attemptsOfPayment s.facts.attempts payment) ≤ 1 := by
  have heq : attemptsOfPayment s.facts.attempts payment =
      (find OutboundPaymentRow.id payment s.outbound.payments).elim [] fun p =>
        if p.subject = .withdrawal then (s.outbound.attemptRows p.id).map (attemptFact p) else [] :=
    (filter_attemptFacts _ (fun p => p.id = payment) fun _ _ => rfl).trans
      (flatMap_single h.valid.payment_ids _)
  rw [heq]
  cases hfind : find OutboundPaymentRow.id payment s.outbound.payments with
  | none => exact Nat.zero_le 1
  | some p =>
    rw [Option.elim_some]
    split_ifs with hsubject
    · rw [finalizedCount_facts]
      exact (h.orderly p (mem_of_find hfind) hsubject).finalized
    · exact Nat.zero_le 1

/-- The attempts under a withdrawal's identity are its sends. -/
theorem attemptsOfSubject_finalized (id : Uuid) :
    finalizedCount (attemptsOfSubject s.facts.attempts id) =
      ((s.outbound.sends id).filter fun a => a.landingState = .finalized).length := by
  have heq : attemptsOfSubject s.facts.attempts id =
      (find Outbound.subjectKey (.withdrawal, id) s.outbound.payments).elim [] fun p =>
        (s.outbound.attemptRows p.id).map (attemptFact p) := by
    rw [← flatMap_single h.valid.subjects]
    refine (filter_attemptFacts _ (fun p => p.subjectId = id) fun _ _ => rfl).trans ?_
    congr 1
    funext p
    simp only [Outbound.subjectKey, Prod.mk.injEq]
    by_cases hid : p.subjectId = id <;> by_cases hsubject : p.subject = .withdrawal <;>
      simp [hid, hsubject]
  rw [heq, Outbound.sends, Outbound.paymentBySubject]
  cases find Outbound.subjectKey (.withdrawal, id) s.outbound.payments with
  | none => rfl
  | some p => exact finalizedCount_facts p _

theorem attemptLineage_pass : (withdrawalAttemptLineage s.facts).pass = true := by
  have hpayments : ((attemptedPayments s.facts.attempts).filter fun payment =>
      1 < finalizedCount (attemptsOfPayment s.facts.attempts payment)) = [] := by
    refine List.filter_eq_nil_iff.2 fun payment _ => ?_
    rw [decide_eq_true_eq]
    exact not_lt.2 (attemptsOfPayment_finalized h payment)
  have hsettled : ((s.facts.withdrawals.filter fun row => row.status = .settled).filter fun row =>
      finalizedCount (attemptsOfSubject s.facts.attempts row.id) ≠ 1 ∨ row.settleTx = none) = [] := by
    refine List.filter_eq_nil_iff.2 fun row hrow => ?_
    obtain ⟨hrow, hstatus⟩ := List.mem_filter.1 hrow
    obtain ⟨r, hr, rfl⟩ := List.mem_map.1 hrow
    rw [decide_eq_true_eq] at hstatus ⊢
    have hcombo : r.combo = .w10 := Combo.w10_of_settled (h.legal r hr) hstatus
    have hone : finalizedCount (attemptsOfSubject s.facts.attempts (attribution s.ledger r).id) =
        1 := by
      have hshape := h.shape r hr
      rw [hcombo] at hshape
      obtain ⟨a, -, -, hfilter⟩ := LastAt.filter_eq hshape (fun state => state = .finalized) rfl
      have hlength := congrArg List.length hfilter
      exact (attemptsOfSubject_finalized h _).trans hlength
    have htx : r.settleTx ≠ none := by
      cases h.accounted r hr with
      | active hold => rw [hcombo] at hold; cases hold
      | released _ status => rcases status with hs | hs <;> rw [hcombo] at hs <;> cases hs
      | settled key _ _ settle => simp [settle]
    rintro (hcount | hnone)
    · exact hcount hone
    · exact htx hnone
  rw [withdrawalAttemptLineage, noneBroken_pass, hpayments, hsettled]
  rfl

/-- In a healthy store every identity holds. -/
theorem verdict_pass : s.verdict.map IdentityResult.pass =
    [true, true, true, true, true, true, true] := by
  simp only [Snapshot.verdict, evaluateMoneyIdentities, List.map_cons, List.map_nil,
    suspenseSigma_pass h, reserveCoverage_pass h, holdMatchesActive_pass h, holdExact_pass h,
    terminalXor_pass h, attemptLineage_pass h, noDuplicateTerminal_pass h]

/-- The report passes what it sees no row of; the rest it judges by the balance alone. -/
theorem report_pass : s.report.map IdentityResult.pass =
    [decide (s.ledger.balanceOf suspense = 0), true,
      decide (s.ledger.balanceOf (cash .withheld) = 0), true, true, true, true] := by
  have hempty : s.report.map IdentityResult.pass =
      [decide (s.facts.suspenseBalanceMicro = 0), decide (0 ≤ s.facts.bonusReserveBalanceMicro),
        decide (s.facts.withheldBalanceMicro = 0), true, true, true, true] := rfl
  rw [hempty, suspense_eq h, withheld_eq h, reserve_eq h, decide_eq_true h.reserve]

end Healthy

theorem sum_eq_zero_iff {α : Type} {rows : List α} {p : α → Bool} {g : α → Int}
    (hpos : ∀ r ∈ rows, 0 < g r) :
    (rows.map fun r => if p r then g r else 0).sum = 0 ↔ ∀ r ∈ rows, p r = false := by
  constructor
  · intro hsum r hr
    have hle := List.single_le_sum (l := rows.map fun r => if p r then g r else 0) ?_ _
      (List.mem_map_of_mem hr)
    · rw [hsum] at hle
      by_contra hp
      rw [if_pos (Bool.eq_true_of_not_eq_false hp)] at hle
      exact absurd (hpos r hr) (not_lt.2 hle)
    · refine List.forall_mem_map.2 fun r hr => ?_
      split_ifs
      · exact le_of_lt (hpos r hr)
      · exact le_rfl
  · intro hnone
    refine List.sum_eq_zero (List.forall_mem_map.2 fun r hr => ?_)
    rw [hnone r hr]
    rfl

/-- In every reachable snapshot the report is truthful exactly when no deposit is an open
observation and no withdrawal has an active hold. -/
theorem report_truthful_iff (s : Snapshot) (h : Reachable s) :
    s.Truthful ↔ (∀ r ∈ s.deposits, (liability r).isOpenObservation = false) ∧
      ∀ r ∈ s.withdrawals, (attribution s.ledger r).hasActiveHold = false := by
  have hs := h.healthy
  have hdeposits : s.ledger.balanceOf suspense = 0 ↔
      ∀ r ∈ s.deposits, (liability r).isOpenObservation = false := by
    rw [hs.suspense, sum_eq_zero_iff (p := fun r => isSuspenseLiability r.status) hs.observed]
    simp only [isOpenObservation_eq]
  have hwithdrawals : s.ledger.balanceOf (cash .withheld) = 0 ↔
      ∀ r ∈ s.withdrawals, (attribution s.ledger r).hasActiveHold = false := by
    rw [hs.withheld]
    refine (sum_eq_zero_iff (p := fun r => r.combo.hasActiveHold) hs.requested).trans ?_
    exact forall₂_congr fun r hr => by rw [hasActiveHold_eq hs hr]
  rw [Snapshot.Truthful, report_pass hs, verdict_pass hs, ← hdeposits, ← hwithdrawals]
  simp

/-! A withdrawal of 40 out of 100, requested and then denied. -/

def sampleFund : LedgerTxn :=
  ⟨"deposit", .deposit, [⟨cash .external, -100⟩, ⟨cash (.user ⟨5⟩), 100⟩]⟩

def sampleHold : LedgerTxn :=
  ⟨"withdraw-hold:11111111111111111111111111111111", .withdrawal,
    [⟨cash (.user ⟨5⟩), -40⟩, ⟨cash .withheld, 40⟩]⟩

def sampleRelease : LedgerTxn :=
  ⟨"withdraw-release:00000000-0000-0000-0000-000000000009", .reversal,
    [⟨cash .withheld, -40⟩, ⟨cash (.user ⟨5⟩), 40⟩]⟩

def requestCommands : List Money.Command :=
  [.post sampleFund.kind sampleFund.key sampleFund.entries (by simp [sampleFund, IsWithheld, cash]),
    .request { money := replacedFacts, geo := .ok .hit, sanctions := .ok .hit, lots := []
               amlCandidate := .ok (), freshId := ⟨9⟩ }
      { user := ⟨5⟩, amountMicro := 40, dest := "11111111111111111111111111111111"
        hasClientIp := true, idempotencyKey := none }]

def denyCommand : Money.Command :=
  .decide replacedFacts (.admin "token" .finance) ⟨9⟩ ⟨5⟩ (.deny "refused")

/-- What the deposit machine sees of a transaction beside suspense. -/
def besideSuspense (t : LedgerTxn) (h : ∀ e ∈ t.entries, ¬IsSuspense e.account) :
    Deposit.Command := .post t.kind t.key t.entries h

/-- What the credit machine sees of a transaction beside the reserve. -/
def besideReserve (t : LedgerTxn) (h : ∀ e ∈ t.entries, ¬IsBonus e.account) : Credit.Command :=
  .post t.kind t.key t.entries h

def requestDeposits : List Deposit.Command :=
  [besideSuspense sampleFund (by simp [sampleFund, IsSuspense, suspense, cash]),
    besideSuspense sampleHold (by simp [sampleHold, IsSuspense, suspense, cash])]

def requestCredits : List Credit.Command :=
  [besideReserve sampleFund (by simp [sampleFund, IsBonus, cash, credit]),
    besideReserve sampleHold (by simp [sampleHold, IsBonus, cash, credit])]

/-- A store with withdrawals only. -/
def withdrawalStore (cmds : List Money.Command) : Snapshot :=
  let db := run (MoneyDb.step ⟨fun _ _ dest => dest, fun _ _ => ""⟩) MoneyDb.empty cmds
  { ledger := db.ledger, withdrawals := db.withdrawals, deposits := [], lots := []
    outbound := db.outbound }

/-- The other machines see the same books and no rows of theirs. -/
def SeenBeside (s : Snapshot) (deposits : List Deposit.Command) (credits : List Credit.Command) :
    Prop :=
  let depositDb := run (DepositDb.step id) DepositDb.empty deposits
  let creditDb := run CreditDb.step CreditDb.empty credits
  (s.ledger.txns = depositDb.ledger.txns ∧
      s.ledger.balances.rows = depositDb.ledger.balances.rows) ∧
    (s.ledger.txns = creditDb.ledger.txns ∧
      s.ledger.balances.rows = creditDb.ledger.balances.rows) ∧
    depositDb.deposits = [] ∧ s.outbound = depositDb.outbound ∧ creditDb.lots = []

instance (s : Snapshot) (deposits : List Deposit.Command) (credits : List Credit.Command) :
    Decidable (SeenBeside s deposits credits) :=
  inferInstanceAs (Decidable (_ ∧ _))

theorem SeenBeside.reachable {cmds : List Money.Command} {deposits : List Deposit.Command}
    {credits : List Credit.Command} (h : SeenBeside (withdrawalStore cmds) deposits credits) :
    Reachable (withdrawalStore cmds) := by
  obtain ⟨⟨htxns, hrows⟩, ⟨htxns', hrows'⟩, hdeposits, houtbound, hlots⟩ := h
  exact ⟨⟨_, cmds, .of_rows rfl rfl, rfl, rfl⟩,
    ⟨id, deposits, .of_rows htxns hrows, hdeposits.symm, houtbound⟩,
    ⟨credits, .of_rows htxns' hrows', hlots.symm⟩⟩

theorem requested_reachable : Reachable (withdrawalStore requestCommands) := by
  have h : SeenBeside (withdrawalStore requestCommands) requestDeposits requestCredits := by
    decide +kernel
  exact h.reachable

theorem denied_reachable : Reachable (withdrawalStore (requestCommands ++ [denyCommand])) := by
  have h : SeenBeside (withdrawalStore (requestCommands ++ [denyCommand]))
      (requestDeposits ++
        [besideSuspense sampleRelease (by simp [sampleRelease, IsSuspense, suspense, cash])])
      (requestCredits ++
        [besideReserve sampleRelease (by simp [sampleRelease, IsBonus, cash, credit])]) := by
    decide +kernel
  exact h.reachable

/-- Once the withdrawal is denied nothing is open and the report is truthful. -/
theorem denied_report_truthful : (withdrawalStore (requestCommands ++ [denyCommand])).Truthful := by
  refine (report_truthful_iff _ denied_reachable).2 ⟨by simp [withdrawalStore], ?_⟩
  decide +kernel

/-- A withdrawal that was both released and settled. -/
def doublyTerminated : Snapshot :=
  let denied := withdrawalStore (requestCommands ++ [denyCommand])
  { denied with withdrawals := denied.withdrawals.map fun r => { r with settleTx := r.releaseTx } }

/-- A healthy store with an active withdrawal is reported broken, and a store with a
doubly terminated withdrawal is reported healthy. -/
theorem active_withdrawal_reported_broken :
    Reachable (withdrawalStore requestCommands) ∧
      ((withdrawalStore requestCommands).verdict.all IdentityResult.pass = true ∧
        (withdrawalStore requestCommands).report.all IdentityResult.pass = false) ∧
      doublyTerminated.verdict.all IdentityResult.pass = false ∧
        doublyTerminated.report.all IdentityResult.pass = true := by
  refine ⟨requested_reachable, ?_⟩
  decide +kernel

end Opinions.Integrity
