import Opinions.Credit.Machine
import Opinions.Store.Shortage

/-! The bonus reserve covers its promises: the invariant and what keeps it. A posting beside
a conversion leaves the reserve and the users' credit at least as they were, a new lot
must fit the reserve, and a conversion pays exactly one promise and closes it. -/

namespace Opinions.Credit

open Lib.Checked Lib.Outcome Lib.Result Lib.Rows Domain.Ledger Model Store
open Trade Ops

def reserve : AccountKey := cash .bonusReserve

def NotShort (e : AppError) : Prop := e ≠ reserveShort

theorem reserve_isBonus : IsBonus reserve := .inl rfl

theorem cash_not_bonus {owner : OwnerRef} (h : owner ≠ .bonusReserve) : ¬IsBonus (cash owner) := by
  rintro (h' | ⟨user, h'⟩)
  · exact h (congrArg AccountKey.owner h')
  · cases congrArg AccountKey.currency h'

/-- A transaction that takes nothing from the reserve or from a user's credit, and that
does not mix them with a market's accounts. -/
structure Harmless (t : LedgerTxn) : Prop where
  kept : ∀ e ∈ t.entries, IsBonus e.account → 0 ≤ e.amount
  apart : (∃ e ∈ t.entries, IsBonus e.account) →
    ∀ e ∈ t.entries, ∀ m, isMarketAccount m e.account = false

variable {t : LedgerTxn} {l₁ l₂ : Ledger} {lots : List CreditLotRow}

theorem harmless_of_plain (h : ∀ e ∈ t.entries, ¬IsBonus e.account) : Harmless t :=
  ⟨fun e he hb => absurd hb (h e he), fun ⟨e, he, hb⟩ => absurd hb (h e he)⟩

theorem Harmless.delta_nonneg (h : Harmless t) : 0 ≤ delta t.entries reserve := by
  refine sum_nonneg fun e he => ?_
  split_ifs with hk
  · exact h.kept e he (hk ▸ reserve_isBonus)
  · exact le_rfl

/-- The ledger grew by harmless transactions. -/
structure Extended (l l' : Ledger) : Prop where
  reserve : l.balanceOf reserve ≤ l'.balanceOf reserve
  txns : ∃ new, l'.txns = l.txns ++ new ∧ ∀ t ∈ new, Harmless t
  keys : (l.txns.map LedgerTxn.key).Nodup → (l'.txns.map LedgerTxn.key).Nodup

namespace Extended

theorem refl (l : Ledger) : Extended l l := ⟨le_rfl, ⟨[], by simp⟩, id⟩

theorem trans {l₃ : Ledger} (h₁ : Extended l₁ l₂) (h₂ : Extended l₂ l₃) : Extended l₁ l₃ := by
  obtain ⟨new₁, hnew₁, hharm₁⟩ := h₁.txns
  obtain ⟨new₂, hnew₂, hharm₂⟩ := h₂.txns
  refine ⟨h₁.reserve.trans h₂.reserve, ⟨new₁ ++ new₂, ?_, fun t ht => ?_⟩, h₂.keys ∘ h₁.keys⟩
  · rw [hnew₂, hnew₁, List.append_assoc]
  · rcases List.mem_append.1 ht with ht | ht
    · exact hharm₁ t ht
    · exact hharm₂ t ht

theorem account (l : Ledger) (k : AccountKey) : Extended l (l.account k) :=
  ⟨le_of_eq (l.balanceOf_account k Credit.reserve).symm, ⟨[], by simp⟩, id⟩

theorem openAll (l : Ledger) (entries : List (Entry AccountKey)) :
    Extended l (openAll l entries) := by
  induction entries generalizing l with
  | nil => exact refl l
  | cons e entries ih => exact (account l _).trans (ih _)

end Extended

variable {kind : TxnKind} {key : String} {entries : List (Entry AccountKey)} {l l' : Ledger}

theorem keys_of_applied (h : l.Applied kind key entries l') (hnd : (l.txns.map LedgerTxn.key).Nodup) :
    (l'.txns.map LedgerTxn.key).Nodup := by
  rw [h.txns, List.map_append, List.map_singleton, ← List.concat_eq_append]
  exact hnd.concat h.fresh

theorem Extended.applied (h : l.Applied kind key entries l') (hharm : Harmless ⟨key, kind, entries⟩) :
    Extended l l' := by
  refine ⟨?_, ⟨_, h.txns, fun t ht => List.mem_singleton.1 ht ▸ hharm⟩, keys_of_applied h⟩
  rw [h.balanceOf]
  exact le_add_of_nonneg_right hharm.delta_nonneg

/-- A harmless posting does not find the reserve short. -/
theorem ledgerApply_harmless (hl : 0 ≤ l.balanceOf reserve) (hharm : Harmless ⟨key, kind, entries⟩) :
    Ends (Extended l) NotShort ((l.ledgerApply kind key entries).mapError .store) := by
  refine ends_mapError (Ledger.ledgerApply_short.imp (fun l' h => .applied h hharm) ?_)
  intro e he hshort
  have hneg := he reserve (AppError.store.inj hshort)
  have hdelta : 0 ≤ delta entries reserve := hharm.delta_nonneg
  omega

theorem postEntries_harmless (hl : 0 ≤ l.balanceOf reserve) (hharm : Harmless ⟨key, kind, entries⟩) :
    Ends (Extended l) NotShort (postEntries kind key entries l) := by
  have hopen := Extended.openAll l entries
  exact (ledgerApply_harmless (hl.trans hopen.reserve) hharm).mono fun _ => hopen.trans

theorem autoCollect_harmless {user : UserId} {receivables : List Int} (hl : 0 ≤ l.balanceOf reserve) :
    Ends (Extended l) NotShort (autoCollect l user key receivables) := by
  unfold autoCollect
  have howed : Ends (fun _ => True) NotShort
      (receivables.foldlM (fun sum r => okOr (tryI64 (sum + r)) AppError.overflow) 0) :=
    ends_foldlM (P := fun _ _ => True) trivial fun r rest sum _ =>
      (ends_okOr).mono fun _ _ => trivial
  refine howed.bind fun owed _ => ?_
  have hopen := Extended.account l (cash (.user user))
  dsimp only
  split_ifs
  · exact Extended.refl l
  · exact hopen
  · have hboth := hopen.trans (.account _ (cash .house))
    refine (ledgerApply_harmless (hl.trans hboth.reserve) (harmless_of_plain ?_)).mono fun _ =>
      hboth.trans
    intro e he
    rcases List.mem_pair.1 he with rfl | rfl
    · exact cash_not_bonus (by rintro ⟨⟩)
    · exact cash_not_bonus (by rintro ⟨⟩)

def retireTxn (lot : CreditLotRow) : LedgerTxn :=
  ⟨convertKey lot.id, .creditConvert,
    [⟨credit (.user lot.user), -lot.amountMicro⟩, ⟨credit .house, lot.amountMicro⟩]⟩

def payTxn (lot : CreditLotRow) : LedgerTxn :=
  ⟨payKey lot.id, .creditConvert,
    [⟨cash .bonusReserve, -lot.amountMicro⟩, ⟨cash (.user lot.user), lot.amountMicro⟩]⟩

/-- Every converted lot was retired and paid, and whatever was taken from the reserve or
from a user's credit retired or paid a converted lot. Lots and transactions have their
own keys, so each of the two happened once. -/
structure ConvertedOnce (l : Ledger) (lots : List CreditLotRow) : Prop where
  lotIds : (lots.map CreditLotRow.id).Nodup
  keys : (l.txns.map LedgerTxn.key).Nodup
  booked : ∀ lot ∈ lots, lot.convertedAt.isSome → retireTxn lot ∈ l.txns ∧ payTxn lot ∈ l.txns
  drawn : ∀ t ∈ l.txns, ∀ e ∈ t.entries, IsBonus e.account → e.amount < 0 →
    ∃ lot ∈ lots, lot.convertedAt.isSome ∧ (t = retireTxn lot ∨ t = payTxn lot)

structure Covered (l : Ledger) (lots : List CreditLotRow) : Prop where
  once : ConvertedOnce l lots
  positive : ∀ lot ∈ lots, 0 < lot.amountMicro
  promise : remainingRealMoneyPromise lots ≤ l.balanceOf reserve
  apart : ∀ t ∈ l.txns, (∃ e ∈ t.entries, IsBonus e.account) →
    ∀ e ∈ t.entries, ∀ m, isMarketAccount m e.account = false

def CreditLotRow.promised (lot : CreditLotRow) : Int := if lot.owed then lot.amountMicro else 0

theorem remainingRealMoneyPromise_eq (lots : List CreditLotRow) :
    remainingRealMoneyPromise lots = (lots.map CreditLotRow.promised).sum :=
  sum_filter CreditLotRow.owed _ lots

variable {lot : CreditLotRow}

theorem promised_nonneg (h : 0 < lot.amountMicro) : 0 ≤ lot.promised := by
  unfold CreditLotRow.promised
  split_ifs
  · exact le_of_lt h
  · exact le_rfl

namespace Covered

theorem reserve_nonneg (h : Covered l lots) : 0 ≤ l.balanceOf reserve := by
  refine le_trans ?_ h.promise
  rw [remainingRealMoneyPromise_eq]
  exact sum_nonneg fun lot hlot => promised_nonneg (h.positive lot hlot)

/-- The reserve covers each open lot. -/
theorem owed_le (h : Covered l lots) (hlot : lot ∈ lots) (howed : lot.owed) :
    lot.amountMicro ≤ l.balanceOf reserve := by
  have hpromised : lot.amountMicro = lot.promised := (if_pos howed).symm
  refine le_trans ?_ h.promise
  rw [remainingRealMoneyPromise_eq, hpromised]
  refine List.single_le_sum (List.forall_mem_map.2 fun lot hlot => ?_) _ (List.mem_map_of_mem hlot)
  exact promised_nonneg (h.positive lot hlot)

theorem extend (h : Covered l lots) (hl : Extended l l') : Covered l' lots := by
  obtain ⟨new, hnew, hharm⟩ := hl.txns
  refine ⟨⟨h.once.lotIds, hl.keys h.once.keys, ?_, ?_⟩, h.positive, h.promise.trans hl.reserve, ?_⟩
  · intro lot hlot hconverted
    rw [hnew]
    have hbooked := h.once.booked lot hlot hconverted
    exact hbooked.imp (List.mem_append_left new) (List.mem_append_left new)
  · intro t ht e he hbonus hneg
    rcases List.mem_append.1 (hnew ▸ ht) with ht | ht
    · exact h.once.drawn t ht e he hbonus hneg
    · exact absurd hneg (not_lt.2 ((hharm t ht).kept e he hbonus))
  · intro t ht
    rcases List.mem_append.1 (hnew ▸ ht) with ht | ht
    · exact h.apart t ht
    · exact (hharm t ht).apart

/-- A new lot whose promise fits the reserve. -/
theorem grant (h : Covered l lots) (hfresh : lot.id ∉ lots.map CreditLotRow.id)
    (hpos : 0 < lot.amountMicro) (hopen : lot.convertedAt = none)
    (hfits : lot.grantClass = .realMoney →
      remainingRealMoneyPromise lots + lot.amountMicro ≤ l.balanceOf reserve) :
    Covered l (lots ++ [lot]) := by
  refine ⟨⟨?_, h.once.keys, ?_, ?_⟩, ?_, ?_, h.apart⟩
  · rw [List.map_append, List.map_singleton, ← List.concat_eq_append]
    exact h.once.lotIds.concat hfresh
  · intro lot' hlot' hconverted
    rcases mem_concat.1 hlot' with hlot' | rfl
    · exact h.once.booked lot' hlot' hconverted
    · rw [hopen] at hconverted
      cases hconverted
  · intro t ht e he hbonus hneg
    obtain ⟨lot', hlot', hdrawn⟩ := h.once.drawn t ht e he hbonus hneg
    exact ⟨lot', List.mem_append_left _ hlot', hdrawn⟩
  · intro lot' hlot'
    rcases List.mem_append.1 hlot' with hlot' | hlot'
    · exact h.positive lot' hlot'
    · exact List.mem_singleton.1 hlot' ▸ hpos
  · rw [remainingRealMoneyPromise_eq, List.map_append, List.sum_append, List.map_singleton,
      List.sum_singleton, ← remainingRealMoneyPromise_eq, CreditLotRow.promised]
    split_ifs with howed
    · exact hfits (of_decide_eq_true howed).1
    · exact (Int.add_zero _).symm ▸ h.promise

theorem mem_stamped {now : Instant} {id : Uuid} (hlot : lot ∈ lots) (hid : lot.id ≠ id) :
    lot ∈ update CreditLotRow.id id (CreditDb.stamped now) lots :=
  mem_update.2 ⟨lot, hlot, if_neg hid⟩

theorem promise_stamped (hnd : (lots.map CreditLotRow.id).Nodup) (hlot : lot ∈ lots)
    (howed : lot.owed) (now : Instant) :
    remainingRealMoneyPromise (update CreditLotRow.id lot.id (CreditDb.stamped now) lots) =
      remainingRealMoneyPromise lots - lot.amountMicro := by
  have hbefore : lot.promised = lot.amountMicro := if_pos howed
  have hafter : (CreditDb.stamped now lot).promised = 0 := if_neg (by simp [CreditLotRow.owed,
    CreditDb.stamped])
  rw [remainingRealMoneyPromise_eq, remainingRealMoneyPromise_eq,
    sum_update hnd (find_of_mem hnd hlot), hbefore, hafter]
  omega

/-- A conversion pays one open promise and closes it. -/
theorem convert (h : Covered l lots) (hlot : lot ∈ lots) (howed : lot.owed) (now : Instant)
    (hretire : l.Applied .creditConvert (convertKey lot.id) (retireTxn lot).entries l₁)
    (hpay : l₁.Applied .creditConvert (payKey lot.id) (payTxn lot).entries l₂) :
    Covered l₂ (update CreditLotRow.id lot.id (CreditDb.stamped now) lots) := by
  have hnd := h.once.lotIds
  have hstamped : CreditDb.stamped now lot ∈
      update CreditLotRow.id lot.id (CreditDb.stamped now) lots :=
    mem_update.2 ⟨lot, hlot, if_pos rfl⟩
  have htxns : l₂.txns = l.txns ++ [retireTxn lot, payTxn lot] := by
    rw [hpay.txns, hretire.txns, List.append_assoc]
    rfl
  refine ⟨⟨?_, keys_of_applied hpay (keys_of_applied hretire h.once.keys), ?_, ?_⟩, ?_, ?_, ?_⟩
  · have hids : (update CreditLotRow.id lot.id (CreditDb.stamped now) lots).map CreditLotRow.id =
        lots.map CreditLotRow.id := map_key_update fun _ => rfl
    rwa [hids]
  · intro lot' hlot' hconverted
    obtain ⟨row, hrow, rfl⟩ := mem_update.1 hlot'
    rw [htxns]
    split_ifs at hconverted ⊢ with hid
    · obtain rfl := List.inj_on_of_nodup_map hnd hrow hlot hid
      exact ⟨by simp [retireTxn, CreditDb.stamped], by simp [payTxn, CreditDb.stamped]⟩
    · have hbooked := h.once.booked row hrow hconverted
      exact hbooked.imp (List.mem_append_left _) (List.mem_append_left _)
  · intro t ht e he hbonus hneg
    rcases List.mem_append.1 (htxns ▸ ht) with ht | ht
    · obtain ⟨lot', hlot', hconverted, hdrawn⟩ := h.once.drawn t ht e he hbonus hneg
      refine ⟨lot', mem_stamped hlot' fun hid => ?_, hconverted, hdrawn⟩
      obtain rfl := List.inj_on_of_nodup_map hnd hlot' hlot hid
      rw [(of_decide_eq_true howed).2] at hconverted
      cases hconverted
    · exact ⟨_, hstamped, rfl, List.mem_pair.1 ht⟩
  · intro lot' hlot'
    obtain ⟨row, hrow, rfl⟩ := mem_update.1 hlot'
    split_ifs
    · exact h.positive row hrow
    · exact h.positive row hrow
  · have hretired : delta (retireTxn lot).entries reserve = 0 := by
      simp [delta, retireTxn, reserve, cash, credit]
    have hpaid : delta (payTxn lot).entries reserve = -lot.amountMicro := by
      simp [delta, payTxn, reserve, cash]
    have := h.promise
    rw [promise_stamped hnd hlot howed, hpay.balanceOf, hretire.balanceOf, hretired, hpaid]
    omega
  · intro t ht
    rcases List.mem_append.1 (htxns ▸ ht) with ht | ht
    · exact h.apart t ht
    · rintro - e he m
      rcases List.mem_pair.1 ht with rfl | rfl <;> rcases List.mem_pair.1 he with rfl | rfl <;> rfl

end Covered

end Opinions.Credit
