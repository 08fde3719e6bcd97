import Opinions.Payout.Resolve

/-! What a payout does to the ledger after its own transaction: it collects from the users
it paid and, on a paid market, converts and grants for the referral parties. All of that
posts to the accounts of users, of the house and of the bonus reserve only. -/

namespace Opinions.Payout

open Lib.Result Model Store Trade Credit

/-- The accounts collections, conversions and grants post to. -/
def IsIngress (k : AccountKey) : Prop := ∃ user, k ∈ ingressAccounts user

theorem not_isEscrow_of_isIngress {k : AccountKey} (h : IsIngress k) : ¬IsEscrow k := by
  obtain ⟨user, hk⟩ := h
  exact not_isEscrow_ingress user k hk

/-- A relation between ledgers that holds of every change made of account openings and
postings to ingress accounts. -/
structure Issuing (R : Ledger → Ledger → Prop) : Prop where
  refl : ∀ l, R l l
  trans : ∀ {l₁ l₂ l₃}, R l₁ l₂ → R l₂ l₃ → R l₁ l₃
  account : ∀ l k, R l (l.account k)
  applied : ∀ {l l' : Ledger} {kind key entries}, l.ledgerApply kind key entries = .ok l' →
    (∀ e ∈ entries, IsIngress e.account) → R l l'

variable {R : Ledger → Ledger → Prop} {l l' : Ledger} {key : String} {pair : UserId × UserId}
  {policy : ReferralPolicy} {granted : Bool}

theorem Issuing.ingressive (hR : Issuing R) (user : UserId) : Ingressive user R :=
  ⟨hR.refl, hR.trans, hR.account, fun happ hin => hR.applied happ fun e he => ⟨user, hin e he⟩⟩

theorem issuing_frame : Issuing (Frame IsEscrow) :=
  ⟨Frame.refl, Frame.trans, Frame.account,
    fun happ hin => Frame.applied happ fun e he => not_isEscrow_of_isIngress (hin e he)⟩

section Issue

variable (hR : Issuing R)
include hR

variable {r : CreditResolve}

theorem collectPayouts_ledger (h : collectPayouts r l = .ok l') : R l l' :=
  foldlM_related hR.refl hR.trans (fun p _ _ hp => (hR.ingressive p.1).autoCollect hp) h

variable {db db' : CreditDb}

theorem convertThenCollect_issued {user : UserId} {now : Instant} {receivables : List Int}
    (h : db.convertThenCollect user now key receivables = .ok db') : R db.ledger db'.ledger :=
  (hR.ingressive user).convertThenCollect (CreditDb.convertThenCollect_ledger h)

omit hR in
theorem addLot_ledger {lot : CreditLotRow} (h : addLot key lot db = .ok db') :
    db'.ledger = db.ledger := by
  simp only [addLot, CreditDb.insertCreditLot, CreditDb.rememberLotIdempotency, ok_iff] at h
  grind

variable {facts : ReferralFacts} {bind : Uuid} {cmd : GrantReferralCmd}

theorem mintPair_ledger (h : mintPair facts policy bind pair cmd db = .ok db') :
    R db.ledger db'.ledger := by
  simp only [mintPair, ok_iff] at h
  obtain ⟨ledger, hledger, first, hfirst, hsecond⟩ := h
  rw [addLot_ledger hsecond, addLot_ledger hfirst]
  refine hR.trans (hR.trans (hR.trans (hR.account _ _) (hR.account _ _)) (hR.account _ _))
    (hR.applied hledger fun e he => ?_)
  simp only [List.mem_cons, List.not_mem_nil, or_false] at he
  rcases he with rfl | rfl | rfl
  · exact ⟨pair.1, by simp [ingressAccounts]⟩
  · exact ⟨pair.1, by simp [ingressAccounts]⟩
  · exact ⟨pair.2, by simp [ingressAccounts]⟩

theorem gateAndConvert_ledger {grantedAt : Instant} {users : List UserId} {passed : Bool}
    (h : gateAndConvert facts bind grantedAt users db = .ok (passed, db')) :
    R db.ledger db'.ledger := by
  induction users generalizing db with
  | nil =>
    cases h
    exact hR.refl _
  | cons user users ih =>
    rw [gateAndConvert] at h
    split at h
    · cases h
    · cases h
      exact hR.refl _
    · simp only [ok_iff] at h
      obtain ⟨converted, hconverted, hrest⟩ := h
      exact hR.trans (convertThenCollect_issued hR hconverted) (ih hrest)

theorem mintIfAdmitted_ledger
    (h : mintIfAdmitted facts policy bind pair cmd db = .ok (granted, db')) :
    R db.ledger db'.ledger := by
  unfold mintIfAdmitted at h
  split_ifs at h
  · cases h
    exact hR.refl _
  · simp only [bind_eq_ok] at h
    obtain ⟨total, -, admitted, -, h⟩ := h
    have hopen : R db.ledger (openReserve db).ledger := hR.account _ _
    cases admitted
    · cases h
      exact hopen
    · simp only [if_true, ok_iff] at h
      obtain ⟨minted, hminted, -, rfl⟩ := h
      exact hR.trans hopen (mintPair_ledger hR hminted)

theorem grantReferralOnPaid_ledger (h : grantReferralOnPaid facts cmd db = .ok (granted, db')) :
    R db.ledger db'.ledger := by
  have hsame {x : Bool} (heq : (pure (x, db) : Except AppError _) = .ok (granted, db')) :
      R db.ledger db'.ledger := by
    cases heq
    exact hR.refl _
  unfold grantReferralOnPaid at h
  split at h
  · exact hsame h
  · rw [bind_eq_ok] at h
    obtain ⟨pair, -, h⟩ := h
    by_cases hmatch : referralPairMatches pair (pair.1, cmd.referee) = false
    · rw [if_pos hmatch] at h
      exact hsame h
    · rw [if_neg hmatch] at h
      split at h
      · rw [bind_eq_ok] at h
        obtain ⟨_, -, h⟩ := h
        exact hsame h
      · split_ifs at h
        · exact hsame h
        · simp only [bind_eq_ok] at h
          obtain ⟨policy, -, ⟨passed, converted⟩, hconverted, h⟩ := h
          have hmid := gateAndConvert_ledger hR hconverted
          cases passed
          · cases h
            exact hmid
          · exact hR.trans hmid (mintIfAdmitted_ledger hR h)

omit hR in
theorem insertAllocation_ledger {fact : AllocationFact} (h : db.insertAllocation fact = .ok db') :
    db'.ledger = db.ledger := by
  unfold CreditDb.insertAllocation at h
  split at h
  · simp only [ok_iff] at h
    obtain ⟨_, -, rfl⟩ := h
    rfl
  · simp only [ok_iff] at h
    obtain ⟨_, -, _, -, _, -, _, -, rfl⟩ := h
    rfl

omit hR in
theorem moveMarketAllocations_ledger {m : MarketId} {terminal : CreditDb.Terminal}
    {fresh : Uuid → Uuid} (h : db.moveMarketAllocations m terminal fresh = .ok db') :
    db'.ledger = db.ledger :=
  foldlM_related (R := fun db db' : CreditDb => db'.ledger = db.ledger) (fun _ => rfl)
    (fun h₁ h₂ => h₂.trans h₁) (fun _ _ _ => insertAllocation_ledger) h

theorem finalizePaid_ledger (h : finalizePaid r db = .ok db') : R db.ledger db'.ledger := by
  simp only [finalizePaid, ok_iff] at h
  obtain ⟨finalized, hfinalized, h⟩ := h
  rw [← moveMarketAllocations_ledger hfinalized]
  refine foldlM_related (R := fun db db' : CreditDb => R db.ledger db'.ledger)
    (fun _ => hR.refl _) hR.trans (fun p db db' hp => ?_) h
  obtain ⟨granted, hgranted⟩ := map_snd_eq_ok.1 hp
  exact grantReferralOnPaid_ledger hR hgranted

theorem finalizeCredits_ledger {facts : ResolveFacts} (h : finalizeCredits facts r l = .ok l') :
    R l l' := by
  unfold finalizeCredits at h
  split_ifs at h
  · exact Except.ok.inj h ▸ hR.refl l
  · obtain ⟨db, hdb, rfl⟩ := map_eq_ok.1 h
    exact finalizePaid_ledger hR hdb

end Issue

end Opinions.Payout
