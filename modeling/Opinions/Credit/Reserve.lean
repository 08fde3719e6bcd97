import Opinions.Credit.Covered

/-! The bonus reserve through every command. Each transaction either leaves the reserve
covering its open promises or fails, and never fails because the reserve is short: the
cases follow the way the commands are written. -/

namespace Opinions.Credit

open Lib.Checked Lib.Outcome Lib.Run Domain.Ledger Domain.Resolution Model Store
open Trade Money Ops

/-- Neither the reserve nor a user's credit. -/
def Plain (k : AccountKey) : Prop := ¬IsBonus k

def CreditDb.IsCovered (db : CreditDb) : Prop := Covered db.ledger db.lots

variable {db : CreditDb}

theorem plain_cash {owner : OwnerRef} (h : owner ≠ .bonusReserve) : Plain (cash owner) :=
  cash_not_bonus h

/-- The two postings of a conversion, on accounts opened for them. -/
def Converted (lot : CreditLotRow) (l l' : Ledger) : Prop :=
  ∃ opened retired, Extended l opened ∧
    opened.Applied .creditConvert (convertKey lot.id) (retireTxn lot).entries retired ∧
    retired.Applied .creditConvert (payKey lot.id) (payTxn lot).entries l'

variable {lot : CreditLotRow}

/-- Paying a lot the reserve covers does not find it short. -/
theorem convertLot_covered (h : db.IsCovered) (hlot : lot ∈ db.lots) :
    Ends (fun l' => db.converts lot = false ∧ l' = db.ledger ∨
        db.converts lot ∧ lot.owed ∧ Converted lot db.ledger l')
      NotShort (convertLot lot.user db.ledger (db.lotFact lot)) := by
  unfold convertLot
  dsimp only
  split
  next hretired hpaid =>
    refine .inl ⟨decide_eq_false fun hconverts => ?_, rfl⟩
    exact Option.not_isSome_iff_eq_none.2 (Option.isNone_iff_eq_none.1 hconverts.1) hretired
  next hretired hpaid =>
    have hnone₁ : (db.ledger.txnByKey (convertKey lot.id)).isNone :=
      Option.isNone_iff_eq_none.2 (Option.not_isSome_iff_eq_none.1 (Bool.eq_false_iff.1 hretired))
    have hnone₂ : (db.ledger.txnByKey (payKey lot.id)).isNone :=
      Option.isNone_iff_eq_none.2 (Option.not_isSome_iff_eq_none.1 (Bool.eq_false_iff.1 hpaid))
    split_ifs with hready
    · have howed : lot.owed := (of_decide_eq_true hready).1
      have hopened : Extended db.ledger ((((db.ledger.account (credit (.user lot.user))).account
          (credit .house)).account (cash .bonusReserve)).account (cash (.user lot.user))) :=
        (Extended.account _ _).trans ((Extended.account _ _).trans
          ((Extended.account _ _).trans (Extended.account _ _)))
      have hcovers := (h.owed_le hlot howed).trans hopened.reserve
      have hpos := h.positive lot hlot
      refine (ends_mapError (Ledger.ledgerApply_short.imp (fun _ => id) fun e he hshort => ?_)).bind
        fun retired hretire => ?_
      · have hneg := he reserve (AppError.store.inj hshort)
        rw [show delta _ reserve = 0 by simp [reserve, cash, credit]] at hneg
        omega
      refine ends_mapError (Ledger.ledgerApply_short.imp (fun l' hpay => ?_) fun e he hshort => ?_)
      · exact .inr ⟨decide_eq_true ⟨hnone₁, hnone₂, hready⟩, howed, _, _, hopened, hretire, hpay⟩
      · have hneg := he reserve (AppError.store.inj hshort)
        rw [hretire.balanceOf, show delta _ reserve = 0 by simp [reserve, cash, credit],
          show delta _ reserve = -lot.amountMicro by simp [reserve, cash, CreditDb.lotFact]] at hneg
        omega
    · exact .inl ⟨decide_eq_false fun hconverts => hready hconverts.2.2, rfl⟩
  next => rintro ⟨⟩

theorem convertOne_covered (h : db.IsCovered) (hlot : lot ∈ db.lots) (now : Instant) :
    Ends (fun db' => db'.IsCovered ∧ ∀ lot' ∈ db.lots, lot'.id ≠ lot.id → lot' ∈ db'.lots) NotShort
      (CreditDb.convertOne lot.user now db lot) := by
  refine (convertLot_covered h hlot).bind fun ledger hledger => ?_
  rcases hledger with ⟨hconverts, rfl⟩ | ⟨hconverts, howed, opened, retired, hopened, hretire, hpay⟩
  · rw [if_neg (Bool.not_eq_true _ ▸ hconverts)]
    exact ⟨h, fun _ hlot' _ => hlot'⟩
  · rw [if_pos hconverts]
    refine ends_mapError ((ends_refuse).bind fun _ _ => ?_)
    refine ⟨(h.extend hopened).convert hlot howed now hretire hpay, fun lot' hlot' hid => ?_⟩
    exact Covered.mem_stamped hlot' hid

theorem convertThenCollect_covered (h : db.IsCovered) (user : UserId) (now : Instant)
    (key : String) (receivables : List Int) :
    Ends CreditDb.IsCovered NotShort (db.convertThenCollect user now key receivables) := by
  have hlots : ∀ lot ∈ db.lotsForUser user, lot ∈ db.lots ∧ lot.user = user := by
    intro lot hlot
    simpa [CreditDb.lotsForUser] using hlot
  have hnd : ((db.lotsForUser user).map CreditLotRow.id).Nodup := by
    refine ((List.perm_insertionSort _ _).map _).nodup_iff.2 ?_
    exact h.once.lotIds.sublist (List.filter_sublist.map _)
  -- the lots still to come are in the table as they were read: only earlier ones were stamped
  have hloop : Ends (fun db' => db'.IsCovered) NotShort
      ((db.lotsForUser user).foldlM (CreditDb.convertOne user now) db) := by
    refine (ends_foldlM (P := fun rest db' => db'.IsCovered ∧
      (∀ lot ∈ rest, lot ∈ db'.lots ∧ lot.user = user) ∧ (rest.map CreditLotRow.id).Nodup)
      ⟨h, hlots, hnd⟩ ?_).mono fun _ hend => hend.1
    rintro lot rest db' ⟨h', hrest, hnd'⟩
    obtain ⟨hlot, rfl⟩ := hrest lot List.mem_cons_self
    rw [List.map_cons, List.nodup_cons] at hnd'
    refine (convertOne_covered h' hlot now).mono fun db'' hnext => ⟨hnext.1, ?_, hnd'.2⟩
    intro lot' hlot'
    obtain ⟨hmem, huser⟩ := hrest lot' (List.mem_cons_of_mem _ hlot')
    refine ⟨hnext.2 lot' hmem fun hid => ?_, huser⟩
    exact hnd'.1 (hid ▸ List.mem_map_of_mem hlot')
  refine hloop.bind fun converted hconverted => ?_
  refine (autoCollect_harmless hconverted.reserve_nonneg).bind fun ledger hledger => ?_
  exact hconverted.extend hledger

/-- The reserve has room for a new promise of the amount. -/
def Fits (grantClass : GrantClass) (amount : Int) (l : Ledger) (lots : List CreditLotRow) : Prop :=
  grantClass = .realMoney → remainingRealMoneyPromise lots + amount ≤ l.balanceOf reserve

theorem bigint_ends (n : Int) :
    Ends (fun v => v = n) (fun e => NotShort (.store e)) (MoneyDb.bigint n) :=
  (ends_okOr).mono fun _ hv => (tryI64_eq_some.1 hv).1.symm

theorem bonusMintedSince_ends (since : Instant) :
    Ends (fun _ => True) NotShort ((db.bonusMintedSince since).mapError .store) :=
  ends_mapError ((bigint_ends _).mono fun _ _ => trivial)

theorem coverPromise_fits (grantClass : GrantClass) (amount : Int) :
    Ends (fun _ => Fits grantClass amount db.ledger db.lots) NotShort
      (coverPromise (db.ledger.balanceOf reserve) grantClass amount db) := by
  unfold coverPromise
  split_ifs with hclass
  · refine (ends_mapError (bigint_ends _)).bind fun promised hpromised => ?_
    refine (ends_okOr).bind fun next hnext => ?_
    refine (ends_refuse).mono fun _ hroom _ => ?_
    rw [← hpromised, (tryI64_eq_some.1 hnext).1]
    exact not_lt.1 hroom
  · exact fun hreal => absurd hreal hclass

theorem admitGrant_fits (mintCap : Int) (grantedAt : Instant) (grantClass : GrantClass)
    (amount : Int) :
    Ends (fun _ => Fits grantClass amount db.ledger db.lots) NotShort
      (admitGrant mintCap grantedAt grantClass amount db) := by
  refine (bonusMintedSince_ends _).bind fun minted _ => ?_
  refine (ends_okOr).bind fun next _ => ?_
  exact (ends_refuse).bind fun _ _ => coverPromise_fits grantClass amount

structure Added (lot : CreditLotRow) (db db' : CreditDb) : Prop where
  ledger : db'.ledger = db.ledger
  lots : db'.lots = db.lots ++ [lot]
  fresh : lot.id ∉ db.lots.map CreditLotRow.id
  positive : 0 < lot.amountMicro

theorem addLot_added (key : String) (lot : CreditLotRow) :
    Ends (Added lot db) NotShort (addLot key lot db) := by
  have hinsert : Ends (Added lot db) NotShort ((db.insertCreditLot lot).mapError .store) := by
    refine ends_mapError ((ends_refuse).bind fun _ hfresh => ?_)
    refine (ends_refuse).bind fun _ hpos => ?_
    exact ⟨rfl, rfl, hfresh, not_le.1 hpos⟩
  refine hinsert.bind fun inserted hinserted => ends_mapError ?_
  refine (ends_refuse).bind fun _ _ => (ends_refuse).bind fun _ _ => ?_
  exact ⟨hinserted.ledger, hinserted.lots, hinserted.fresh, hinserted.positive⟩

variable {db' : CreditDb} {entries : List (Entry AccountKey)} {l : Ledger} {cmd : GrantReferralCmd}
  {facts : ReferralFacts} {policy : ReferralPolicy}

theorem Added.isCovered (h : Added lot db db') (hdb : db.IsCovered) (hopen : lot.convertedAt = none)
    (hfits : Fits lot.grantClass lot.amountMicro db.ledger db.lots) : db'.IsCovered := by
  unfold CreditDb.IsCovered
  rw [h.ledger, h.lots]
  exact hdb.grant h.fresh h.positive hopen hfits

variable {kind : TxnKind} {key : String}

/-- A posting that leaves the reserve out does not find it short. -/
theorem ledgerApply_beside (hl : 0 ≤ l.balanceOf reserve) (hbeside : delta entries reserve = 0) :
    Ends (l.Applied kind key entries) NotShort
      ((l.ledgerApply kind key entries).mapError .store) := by
  refine ends_mapError (Ledger.ledgerApply_short.imp (fun _ => id) fun e he hshort => ?_)
  have hneg := he reserve (AppError.store.inj hshort)
  omega

theorem openReserve_covered (h : db.IsCovered) : (openReserve db).IsCovered :=
  h.extend (.account _ _)

theorem gate_ends (gate : Gate) : Ends (fun _ => True) NotShort (gate.mapError Subtype.val) :=
  (ends_error fun e => e.2).mono fun _ _ => trivial

/-- Issued credit: the house gives it, users receive it. -/
theorem harmless_credit (h : ∀ e ∈ entries, e.account = credit .house ∨
      (∃ user, e.account = credit (.user user)) ∧ 0 ≤ e.amount) :
    Harmless ⟨key, kind, entries⟩ := by
  refine ⟨fun e he hbonus => ?_, fun _ e he m => ?_⟩
  · rcases h e he with haccount | ⟨-, hnonneg⟩
    · rw [haccount] at hbonus
      rcases hbonus with hcash | ⟨user, huser⟩
      · cases congrArg AccountKey.currency hcash
      · cases congrArg AccountKey.owner huser
    · exact hnonneg
  · rcases h e he with haccount | ⟨⟨user, haccount⟩, -⟩
    · rw [haccount]
      rfl
    · rw [haccount]
      rfl

theorem grantCredit_covered (h : db.IsCovered) (facts : GrantFacts) (cmd : GrantCreditCmd) :
    Ends (fun r => r.2.IsCovered) NotShort (grantCredit facts cmd db) := by
  unfold grantCredit
  split
  · refine (ends_okOr).bind fun lot _ => ?_
    exact (ends_refuse).bind fun _ _ => h
  · refine (convertThenCollect_covered h _ _ _ _).bind fun converted hconverted => ?_
    refine (gate_ends _).bind fun _ _ => ?_
    refine (ends_okOr).bind fun mintCap _ => ?_
    refine (admitGrant_fits _ _ _ _).bind fun _ hfits => ?_
    have hopened := (Extended.account (openReserve converted).ledger (credit .house)).trans
      (.account _ (credit (.user cmd.user)))
    have hcovered := (openReserve_covered hconverted).extend hopened
    refine (ledgerApply_beside hcovered.reserve_nonneg ?_).bind fun ledger happlied => ?_
    · simp [reserve, cash, credit]
    refine (addLot_added _ _).bind fun stored hadded => ?_
    have hposted := Extended.applied happlied (harmless_credit ?_)
    · refine hadded.isCovered (hcovered.extend hposted) rfl fun hreal => ?_
      exact (hfits hreal).trans (hopened.trans hposted).reserve
    · intro e he
      rcases List.mem_pair.1 he with rfl | rfl
      · exact .inl rfl
      · exact .inr ⟨⟨_, rfl⟩, le_of_lt hadded.positive⟩

theorem qualifies_positive (h : qualifies facts policy cmd) :
    0 < policy.referrerAmountMicro ∧ 0 < policy.refereeAmountMicro := by
  unfold qualifies at h
  split at h
  · cases h
  · exact (of_decide_eq_true h).2.2

/-- Both legs fit once their total does: the second is measured after the first. -/
theorem mintPair_covered (h : db.IsCovered) {bind : Uuid} {pair : UserId × UserId}
    (hpos : 0 < policy.referrerAmountMicro ∧ 0 < policy.refereeAmountMicro)
    (hfits : Fits policy.grantClass (policy.referrerAmountMicro + policy.refereeAmountMicro)
      db.ledger db.lots) :
    Ends CreditDb.IsCovered NotShort (mintPair facts policy bind pair cmd db) := by
  obtain ⟨hreferrer, hreferee⟩ := hpos
  have hopened := (Extended.account db.ledger (credit .house)).trans
    ((Extended.account _ (credit (.user pair.1))).trans (.account _ (credit (.user pair.2))))
  refine (ledgerApply_harmless (h.reserve_nonneg.trans hopened.reserve)
    (harmless_credit ?_)).bind fun ledger hledger => ?_
  · intro e he
    simp only [List.mem_cons, List.not_mem_nil, or_false] at he
    rcases he with rfl | rfl | rfl
    · exact .inl rfl
    · exact .inr ⟨⟨_, rfl⟩, le_of_lt hreferrer⟩
    · exact .inr ⟨⟨_, rfl⟩, le_of_lt hreferee⟩
  have hposted := hopened.trans hledger
  refine (addLot_added _ _).bind fun first hfirst => ?_
  have hcovered : first.IsCovered := by
    refine hfirst.isCovered (h.extend hposted) rfl fun hreal => ?_
    have := hfits hreal
    have := hposted.reserve
    dsimp only [referralLot]
    omega
  refine (addLot_added _ _).mono fun second hsecond => hsecond.isCovered hcovered rfl fun hreal => ?_
  have hpromise : remainingRealMoneyPromise first.lots =
      remainingRealMoneyPromise db.lots + policy.referrerAmountMicro := by
    have howed : CreditLotRow.promised (referralLot .referrer pair.1 policy.referrerAmountMicro
        facts.freshReferrer bind cmd.paidMarket cmd.grantedAt policy.grantClass) =
        policy.referrerAmountMicro := if_pos (decide_eq_true ⟨hreal, rfl⟩)
    rw [hfirst.lots, remainingRealMoneyPromise_eq, List.map_append, List.sum_append,
      List.map_singleton, List.sum_singleton, howed, ← remainingRealMoneyPromise_eq]
  have hroom := hfits hreal
  have hgrew := hposted.reserve
  rw [hpromise, hfirst.ledger]
  dsimp only [referralLot]
  omega

theorem validatedReferralLots_ends (pair : UserId × UserId) (bind : Uuid) :
    Ends (fun _ => True) NotShort (validatedReferralLots pair bind db) := by
  refine (ends_okOr).bind fun referrerLot _ => (ends_okOr).bind fun refereeLot _ => ?_
  exact (ends_refuse).bind fun _ _ => trivial

theorem grantReferral_covered (h : db.IsCovered) (facts : ReferralFacts) (cmd : GrantReferralCmd) :
    Ends (fun r => r.2.IsCovered) NotShort (grantReferral facts cmd db) := by
  refine (ends_okOr).bind fun bind _ => (ends_okOr).bind fun pair _ => ?_
  refine (ends_refuse).bind fun _ _ => ?_
  split
  · exact (validatedReferralLots_ends pair bind).bind fun _ _ => h
  · refine (ends_okOr).bind fun locked _ => (ends_refuse).bind fun _ _ => ?_
    refine (ends_refuse).bind fun _ _ => (ends_error (by rintro _ ⟨⟩)).bind fun policy _ => ?_
    refine (ends_foldlM (P := fun _ db => db.IsCovered) h fun _ _ _ h' =>
      convertThenCollect_covered h' _ _ _ _).bind fun converted hconverted => ?_
    refine (ends_forM fun user _ => gate_ends _).bind fun _ _ => ?_
    refine (ends_refuse).bind fun _ hqualifies => (ends_okOr).bind fun total htotal => ?_
    obtain ⟨rfl, -⟩ := tryI64_eq_some.1 htotal
    refine (admitGrant_fits _ _ _ _).bind fun _ hfits => ?_
    have hpos := qualifies_positive (Bool.eq_true_of_not_eq_false hqualifies)
    exact (mintPair_covered (openReserve_covered hconverted) hpos hfits).bind fun _ hminted => hminted

theorem referralOperationError_notShort {e : AppError} (h : NotShort e) :
    NotShort (referralOperationError e) := by
  cases e <;> first | exact h | rintro ⟨⟩

theorem gateAndConvert_covered (h : db.IsCovered) (facts : ReferralFacts) (bind : Uuid)
    (grantedAt : Instant) (users : List UserId) :
    Ends (fun r => r.2.IsCovered) NotShort (gateAndConvert facts bind grantedAt users db) := by
  induction users generalizing db with
  | nil => exact h
  | cons user users ih =>
    unfold gateAndConvert
    split
    next e he _ => exact he
    next => exact h
    next =>
      refine (ends_mapError ((convertThenCollect_covered h _ _ _ _).imp (fun _ => id)
        fun _ => referralOperationError_notShort)).bind fun converted hconverted => ?_
      exact ih hconverted

theorem admitsPair_fits (policy : ReferralPolicy) (grantedAt : Instant) (total : Int) :
    Ends (fun admitted => admitted = true → Fits policy.grantClass total db.ledger db.lots) NotShort
      (admitsPair policy grantedAt total db) := by
  refine (bonusMintedSince_ends _).bind fun minted _ => (ends_okOr).bind fun next _ => ?_
  split_ifs with hcap hclass
  · rintro ⟨⟩
  · refine (ends_mapError (bigint_ends _)).bind fun promised hpromised => ?_
    refine (ends_okOr).bind fun next hnext => ?_
    intro hadmitted _
    rw [← hpromised, (tryI64_eq_some.1 hnext).1]
    exact of_decide_eq_true hadmitted
  · exact fun _ hreal => absurd hreal hclass

theorem mintIfAdmitted_covered (h : db.IsCovered) (facts : ReferralFacts) (policy : ReferralPolicy)
    (bind : Uuid) (pair : UserId × UserId) (cmd : GrantReferralCmd) :
    Ends (fun r => r.2.IsCovered) NotShort (mintIfAdmitted facts policy bind pair cmd db) := by
  unfold mintIfAdmitted
  split_ifs with hqualifies
  · exact h
  · have hpos := qualifies_positive (Bool.eq_true_of_not_eq_false hqualifies)
    refine (ends_okOr).bind fun total htotal => ?_
    obtain ⟨rfl, -⟩ := tryI64_eq_some.1 htotal
    refine (admitsPair_fits _ _ _).bind fun admitted hadmitted => ?_
    split_ifs with hyes
    · exact (mintPair_covered (openReserve_covered h) hpos (hadmitted hyes)).bind fun _ hminted =>
        hminted
    · exact openReserve_covered h

theorem grantReferralOnPaid_covered (h : db.IsCovered) (facts : ReferralFacts)
    (cmd : GrantReferralCmd) :
    Ends (fun r => r.2.IsCovered) NotShort (grantReferralOnPaid facts cmd db) := by
  unfold grantReferralOnPaid
  split
  · exact h
  · refine (ends_okOr).bind fun pair _ => ?_
    split
    · exact h
    split
    · exact (validatedReferralLots_ends pair _).bind fun _ _ => h
    · split
      · exact h
      refine (ends_error (by rintro _ ⟨⟩)).bind fun policy _ => ?_
      refine (gateAndConvert_covered h _ _ _ _).bind fun (passed, converted) hconverted => ?_
      dsimp only
      split_ifs
      · exact mintIfAdmitted_covered hconverted _ _ _ _ _
      · exact hconverted

/-- Only the allocations may differ. -/
structure SameLots (db db' : CreditDb) : Prop where
  ledger : db'.ledger = db.ledger
  lots : db'.lots = db.lots

theorem SameLots.isCovered (h : SameLots db db') (hdb : db.IsCovered) : db'.IsCovered := by
  unfold CreditDb.IsCovered
  rwa [h.ledger, h.lots]

theorem checkAllocated_ends (fact : AllocationFact) :
    Ends (fun _ => True) (fun e => NotShort (.store e)) (db.checkAllocated fact) := by
  refine (ends_refuse).bind fun _ _ => (ends_okOr).bind fun trade _ => ?_
  refine (bigint_ends _).bind fun tradeProgress _ => (ends_okOr).bind fun nextTrade _ => ?_
  refine (ends_refuse).bind fun _ _ => (ends_okOr).bind fun lot _ => ?_
  refine (bigint_ends _).bind fun progress _ => (ends_okOr).bind fun nextLot _ => ?_
  exact (ends_refuse).mono fun _ _ => trivial

theorem checkTerminal_ends (fact : AllocationFact) :
    Ends (fun _ => True) (fun e => NotShort (.store e)) (db.checkTerminal fact) := by
  refine (ends_okOr).bind fun sourceId _ => (ends_okOr).bind fun source _ => ?_
  refine (ends_refuse).bind fun _ _ => ?_
  exact (ends_refuse).mono fun _ _ => trivial

theorem checkFact_ends (fact : AllocationFact) :
    Ends (fun _ => True) (fun e => NotShort (.store e)) (db.checkFact fact) := by
  unfold CreditDb.checkFact
  split
  · exact checkAllocated_ends fact
  · exact checkTerminal_ends fact
  · exact checkTerminal_ends fact

theorem insertAllocation_sameLots (fact : AllocationFact) :
    Ends (SameLots db) (fun e => NotShort (.store e)) (db.insertAllocation fact) := by
  unfold CreditDb.insertAllocation
  split
  · exact (ends_refuse).bind fun _ _ => ⟨rfl, rfl⟩
  · refine (checkFact_ends fact).bind fun _ _ => (ends_refuse).bind fun _ _ => ?_
    refine (ends_refuse).bind fun _ _ => (ends_refuse).bind fun _ _ => ?_
    exact ⟨rfl, rfl⟩

theorem insertAllocations_covered {α : Type} (h : db.IsCovered) (facts : List α)
    (fact : α → AllocationFact) :
    Ends CreditDb.IsCovered (fun e => NotShort (.store e))
      (facts.foldlM (fun db a => db.insertAllocation (fact a)) db) :=
  ends_foldlM (P := fun _ db => db.IsCovered) h fun a _ _ h' =>
    (insertAllocation_sameLots (fact a)).mono fun _ hsame => hsame.isCovered h'

theorem moveMarketAllocations_covered (h : db.IsCovered) (market : MarketId)
    (terminal : CreditDb.Terminal) (fresh : Uuid → Uuid) :
    Ends CreditDb.IsCovered NotShort
      ((db.moveMarketAllocations market terminal fresh).mapError .store) :=
  ends_mapError (insertAllocations_covered h _ _)

theorem allocateFee_covered (h : db.IsCovered) (t : CreditTrade) :
    Ends CreditDb.IsCovered NotShort (allocateFee t db) := by
  unfold allocateFee
  split_ifs
  · refine (ends_error (by rintro _ ⟨⟩)).bind fun planned _ => ?_
    exact ends_foldlM (P := fun _ db => db.IsCovered) h fun fact _ _ h' =>
      ends_mapError ((insertAllocation_sameLots fact).mono fun _ hsame => hsame.isCovered h')
  · exact h

theorem tradeEntries_plain (cmd : PlaceTradeCmd) (legs : QuotedLegs) :
    ∀ e ∈ tradeEntries cmd legs, ¬IsBonus e.account := by
  intro e he
  unfold tradeEntries at he
  split_ifs at he <;> simp only [List.mem_cons, List.not_mem_nil, or_false] at he
  · rcases he with rfl | rfl | rfl <;> exact cash_not_bonus (by rintro ⟨⟩)
  · rcases he with rfl | rfl <;> exact cash_not_bonus (by rintro ⟨⟩)

theorem extended_openTradeAccounts (l : Ledger) (cmd : PlaceTradeCmd) (legs : QuotedLegs) :
    Extended l (openTradeAccounts l cmd legs) := by
  have hopened := (Extended.account l (cash (.user cmd.user))).trans
    (.account _ (cash (.marketEscrow cmd.market)))
  unfold openTradeAccounts
  dsimp only
  split_ifs
  · exact hopened.trans (.account _ _)
  · exact hopened

theorem bookTrade_covered (h : db.IsCovered) (t : CreditTrade) :
    Ends CreditDb.IsCovered NotShort (bookTrade t db) := by
  unfold bookTrade
  split
  · exact h
  · refine (convertThenCollect_covered h _ _ _ _).bind fun converted hconverted => ?_
    refine (gate_ends _).bind fun _ _ => ?_
    have hopened := extended_openTradeAccounts converted.ledger t.cmd t.legs
    refine (ledgerApply_harmless (hconverted.reserve_nonneg.trans hopened.reserve)
      (harmless_of_plain (tradeEntries_plain _ _))).bind fun ledger hledger => ?_
    refine (ends_refuse).bind fun _ _ => ?_
    exact allocateFee_covered (by exact hconverted.extend (hopened.trans hledger)) t

theorem forall_mem_push {α : Type} {P : α → Prop} {xs : List α} {x : α} (hxs : ∀ e ∈ xs, P e)
    (hx : P x) (c : Prop) [Decidable c] : ∀ e ∈ if c then xs ++ [x] else xs, P e := by
  split_ifs
  · exact List.forall_mem_append.2 ⟨hxs, List.forall_mem_singleton.2 hx⟩
  · exact hxs

theorem settlementEntries_within {accounts : AccountKey → Prop} {escrow fees : AccountKey}
    {st : Settlement AccountKey} (hescrow : accounts escrow) (hfees : accounts fees)
    (hholders : ∀ p ∈ st.payouts, accounts p.1) :
    Ends (fun entries => ∀ e ∈ entries, accounts e.account) NotShort
      (settlementEntries escrow fees st) := by
  have hpaid : Ends (fun acc : List (Entry AccountKey) × Int => ∀ e ∈ acc.1, accounts e.account)
      NotShort (st.payouts.foldlM pushPayout ([], 0)) := by
    refine (ends_foldlM (P := fun rest (acc : List (Entry AccountKey) × Int) =>
      (∀ p ∈ rest, accounts p.1) ∧ ∀ e ∈ acc.1, accounts e.account)
      ⟨hholders, by simp⟩ ?_).mono fun _ hend => hend.2
    rintro p rest acc ⟨hrest, hacc⟩
    refine (ends_okOr).bind fun total _ => ?_
    exact ⟨fun q hq => hrest q (List.mem_cons_of_mem p hq),
      forall_mem_push hacc (hrest p List.mem_cons_self) _⟩
  refine hpaid.bind fun acc hacc => (ends_okOr).bind fun total _ => ?_
  exact forall_mem_push (forall_mem_push hacc hfees _) hescrow _

theorem collectPayouts_extended (hl : 0 ≤ l.balanceOf reserve) (r : CreditResolve) :
    Ends (Extended l) NotShort (collectPayouts r l) :=
  ends_foldlM (P := fun _ l' => Extended l l') (.refl l) fun _ _ _ hgrew =>
    (autoCollect_harmless (hl.trans hgrew.reserve)).mono fun _ => hgrew.trans

theorem finalizePaid_covered (h : db.IsCovered) (r : CreditResolve) :
    Ends CreditDb.IsCovered NotShort (finalizePaid r db) := by
  refine (moveMarketAllocations_covered h _ _ _).bind fun finalized hfinalized => ?_
  refine ends_foldlM (P := fun _ db => CreditDb.IsCovered db) hfinalized fun p _ db' h' => ?_
  exact ends_map (grantReferralOnPaid_covered h' _ _)

theorem resolve_covered (h : db.IsCovered) (r : CreditResolve) :
    Ends CreditDb.IsCovered NotShort (resolve r db) := by
  unfold resolve
  split
  · exact h
  · have hholders : ∀ p ∈ r.settlement.payouts, Plain p.1 := by
      intro p hp
      obtain ⟨q, -, rfl⟩ := List.mem_map.1 hp
      cases hq : q.1 with
      | user | pool => exact plain_cash (by rintro ⟨⟩)
    refine (gate_ends _).bind fun _ _ => ?_
    have hescrow : Plain (cash (.marketEscrow r.market)) := plain_cash (by rintro ⟨⟩)
    have hfees : Plain (cash .fees) := plain_cash (by rintro ⟨⟩)
    refine (settlementEntries_within hescrow hfees hholders).bind fun entries hentries => ?_
    refine (postEntries_harmless h.reserve_nonneg (harmless_of_plain hentries)).bind
      fun paid hpaid => ?_
    refine (collectPayouts_extended (h.reserve_nonneg.trans hpaid.reserve) r).bind
      fun ledger hledger => ?_
    have hsettled := h.extend (hpaid.trans hledger)
    dsimp only
    split_ifs
    · exact hsettled
    · exact finalizePaid_covered (by exact hsettled) r

/-- A market's transactions never touched the reserve or a user's credit. -/
theorem marketLedgerTxns_plain (h : db.IsCovered) (m : MarketId) :
    ∀ t ∈ marketLedgerTxns db.ledger m, ∀ e ∈ t.entries, Plain e.account := by
  intro t ht e he hbonus
  rw [marketLedgerTxns, List.mem_filter, List.any_eq_true] at ht
  obtain ⟨ht, e', he', hmarket⟩ := ht
  rw [h.apart t ht ⟨e, he, hbonus⟩ e' he' m] at hmarket
  cases hmarket

theorem unwind_covered (h : db.IsCovered) (u : CreditUnwind) :
    Ends CreditDb.IsCovered NotShort (unwind u db) := by
  refine (gate_ends _).bind fun _ _ => ?_
  refine (reversal_within (by rintro ⟨⟩) (by rintro _ ⟨⟩) (plain_cash (by rintro ⟨⟩))
    (marketLedgerTxns_plain h u.market)).bind fun legs hlegs => ?_
  have hposted : Ends (Extended db.ledger) NotShort
      (postReversal u.market legs.entries db.ledger) := by
    unfold postReversal
    split_ifs
    · exact Extended.refl _
    · exact postEntries_harmless h.reserve_nonneg (harmless_of_plain hlegs)
  refine hposted.bind fun ledger hledger => ?_
  exact moveMarketAllocations_covered (by exact h.extend hledger) _ _ _

theorem harmless_topUp {amount : Int} (h : 0 < amount) :
    Harmless ⟨key, kind, topUpEntries amount⟩ := by
  refine ⟨fun e he hbonus => ?_, fun _ e he m => ?_⟩
  · rcases List.mem_pair.1 he with rfl | rfl
    · exact absurd hbonus (cash_not_bonus (by rintro ⟨⟩))
    · exact le_of_lt h
  · rcases List.mem_pair.1 he with rfl | rfl <;> rfl

theorem step_covered (h : db.IsCovered) (c : Command) :
    Ends CreditDb.IsCovered NotShort (db.step c) := by
  cases c with
  | grant facts cmd => exact ends_map (grantCredit_covered h facts cmd)
  | referral facts cmd => exact ends_map (grantReferral_covered h facts cmd)
  | trade t => exact bookTrade_covered h t
  | resolve r => exact resolve_covered h r
  | unwind u => exact unwind_covered h u
  | convert user now key receivables => exact convertThenCollect_covered h user now key receivables
  | topUp kind key amount positive =>
    exact (postEntries_harmless h.reserve_nonneg (harmless_topUp positive)).bind fun _ hledger =>
      h.extend hledger
  | post kind key entries plain =>
    exact (postEntries_harmless h.reserve_nonneg (harmless_of_plain plain)).bind fun _ hledger =>
      h.extend hledger

theorem empty_covered : CreditDb.empty.IsCovered :=
  ⟨⟨List.nodup_nil, List.nodup_nil, (by rintro _ ⟨⟩), (by rintro _ ⟨⟩)⟩, (by rintro _ ⟨⟩), le_rfl, (by rintro _ ⟨⟩)⟩

theorem covered_run (cmds : List Command) : (run CreditDb.step CreditDb.empty cmds).IsCovered :=
  run_preserves (fun c _ _ _ hdb hstep => (step_covered hdb c).of_ok hstep) empty_covered

/-- After any sequence of transactions the reserve holds every promise still open, no
transaction fails because the reserve is short, and each lot was converted at most once,
for exactly its amount. -/
theorem reserve_covers_promises (cmds : List Command) :
    let db := run CreditDb.step CreditDb.empty cmds
    remainingRealMoneyPromise db.lots ≤ db.ledger.balanceOf (cash .bonusReserve) ∧
      (∀ c, db.step c ≠ .error reserveShort) ∧ ConvertedOnce db.ledger db.lots := by
  have h := covered_run cmds
  exact ⟨h.promise, fun c hshort => (step_covered h c).of_error hshort rfl, h.once⟩

end Opinions.Credit
