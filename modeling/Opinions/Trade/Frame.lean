import Opinions.Trade.Place

/-! Ledger changes that leave some accounts alone. `Frame keep` says that a change
touched no account of `keep`, closed no account, lost no transaction and took no
balance out of range. Converting and collecting frame every account but the user's
own, the house's and the bonus reserve. -/

namespace Opinions.Trade

open Lib.Result Domain.Ledger Model Opinions.Store

structure Frame (keep : AccountKey → Prop) (l l' : Ledger) : Prop where
  kept : ∀ k, keep k → l'.balanceOf k = l.balanceOf k
  opened : ∀ k, l.Opened k → l'.Opened k
  booked : ∀ t ∈ l.txns, t ∈ l'.txns
  inRange : l.InRange → l'.InRange

variable {keep : AccountKey → Prop}

theorem Frame.refl (l : Ledger) : Frame keep l l := ⟨fun _ _ => rfl, fun _ h => h, fun _ h => h, id⟩

theorem Frame.trans {l₁ l₂ l₃ : Ledger} (h₁ : Frame keep l₁ l₂) (h₂ : Frame keep l₂ l₃) :
    Frame keep l₁ l₃ :=
  ⟨fun k hk => (h₂.kept k hk).trans (h₁.kept k hk), fun k h => h₂.opened k (h₁.opened k h),
    fun t h => h₂.booked t (h₁.booked t h), fun h => h₂.inRange (h₁.inRange h)⟩

variable {l l' : Ledger}

theorem Frame.mono {keep' : AccountKey → Prop} (hkeep : ∀ k, keep' k → keep k)
    (h : Frame keep l l') :
    Frame keep' l l' :=
  ⟨fun k hk => h.kept k (hkeep k hk), h.opened, h.booked, h.inRange⟩

theorem Frame.account (l : Ledger) (k : AccountKey) : Frame keep l (l.account k) :=
  ⟨fun _ _ => l.balanceOf_account k _, fun _ h => h.account k, fun _ h => h, fun h => h.account k⟩

variable {key : String}

theorem Frame.applied {kind : TxnKind} {entries : List (Entry AccountKey)}
    (h : l.ledgerApply kind key entries = .ok l') (hne : ∀ e ∈ entries, ¬keep e.account) :
    Frame keep l l' := by
  have ha := Ledger.ledgerApply_spec h
  refine ⟨fun k hk => ?_, fun k hk => ha.opened hk, fun t ht => ?_, ha.inRange⟩
  · have hzero : k ∉ entries.map Entry.account := by
      intro hmem
      obtain ⟨e, he, rfl⟩ := List.mem_map.1 hmem
      exact hne e he hk
    rw [ha.balanceOf, delta_eq_zero hzero, add_zero]
  · rw [ha.txns]
    exact List.mem_append_left _ ht

/-- The accounts a conversion or collection for a user posts to. -/
def ingressAccounts (user : UserId) : List AccountKey :=
  [credit (.user user), credit .house, cash .bonusReserve, cash (.user user), cash .house]

/-- A relation between ledgers that holds of every change made of account openings and
postings to the accounts of a user's ingress. -/
structure Ingressive (user : UserId) (R : Ledger → Ledger → Prop) : Prop where
  refl : ∀ l, R l l
  trans : ∀ {l₁ l₂ l₃}, R l₁ l₂ → R l₂ l₃ → R l₁ l₃
  account : ∀ l k, R l (l.account k)
  applied : ∀ {l l' : Ledger} {kind key entries}, l.ledgerApply kind key entries = .ok l' →
    (∀ e ∈ entries, e.account ∈ ingressAccounts user) → R l l'

variable {receivables : List Int} {user : UserId} {lots : List LotFact}

section Ingress

variable {R : Ledger → Ledger → Prop} (hR : Ingressive user R)
include hR

theorem Ingressive.convertLot {lot : LotFact} (h : convertLot user l lot = .ok l') : R l l' := by
  unfold Trade.convertLot at h
  dsimp only at h
  split at h
  · exact Except.ok.inj h ▸ hR.refl l
  · split_ifs at h
    · simp only [ok_iff] at h
      obtain ⟨retired, hretire, hpay⟩ := h
      have hopen : R l ((((l.account (credit (.user user))).account
          (credit .house)).account (cash .bonusReserve)).account (cash (.user user))) :=
        hR.trans (hR.trans (hR.trans (hR.account l _) (hR.account _ _)) (hR.account _ _))
          (hR.account _ _)
      refine hR.trans (hR.trans hopen (hR.applied hretire ?_)) (hR.applied hpay ?_) <;>
        simp [ingressAccounts]
    · exact Except.ok.inj h ▸ hR.refl l
  · cases h

theorem Ingressive.autoCollect (h : autoCollect l user key receivables = .ok l') : R l l' := by
  simp only [Trade.autoCollect, bind_eq_ok] at h
  obtain ⟨owed, -, h⟩ := h
  split_ifs at h
  · exact pure_eq_ok.1 h ▸ hR.refl l
  · exact pure_eq_ok.1 h ▸ hR.account l _
  · rw [mapError_eq_ok] at h
    refine hR.trans (hR.trans (hR.account l _) (hR.account _ _)) (hR.applied h ?_)
    simp [ingressAccounts]

theorem Ingressive.convertThenCollect (h : convertThenCollect l user key lots receivables = .ok l') :
    R l l' := by
  simp only [Trade.convertThenCollect, bind_eq_ok] at h
  obtain ⟨converted, hconv, hcollect⟩ := h
  refine hR.trans ?_ (hR.autoCollect hcollect)
  induction lots generalizing l with
  | nil =>
    rw [List.foldlM_nil, pure_eq_ok] at hconv
    exact hconv ▸ hR.refl l
  | cons lot lots ih =>
    simp only [List.foldlM_cons, bind_eq_ok] at hconv
    obtain ⟨l₁, hlot, hrest⟩ := hconv
    exact hR.trans (hR.convertLot hlot) (ih hrest)

end Ingress

theorem Frame.convertThenCollect (hkeep : ∀ k ∈ ingressAccounts user, ¬keep k)
    (h : convertThenCollect l user key lots receivables = .ok l') : Frame keep l l' := by
  have hframe : Ingressive user (Frame keep) :=
    ⟨Frame.refl, Frame.trans, Frame.account,
      fun happly hin => Frame.applied happly fun e he => hkeep _ (hin e he)⟩
  exact hframe.convertThenCollect h

/-- Postings create the accounts they name. -/
def openAll (l : Ledger) (entries : List (Entry AccountKey)) : Ledger :=
  entries.foldl (fun l e => l.account e.account) l

@[simp] theorem txns_openAll (l : Ledger) (entries : List (Entry AccountKey)) :
    (openAll l entries).txns = l.txns := by
  unfold openAll
  induction entries generalizing l with
  | nil => rfl
  | cons e entries ih => rw [List.foldl_cons, ih, Ledger.txns_account]

theorem Frame.openAll (l : Ledger) (entries : List (Entry AccountKey)) :
    Frame keep l (openAll l entries) := by
  induction entries generalizing l with
  | nil => exact Frame.refl l
  | cons e entries ih => exact (Frame.account l _).trans (ih _)

end Opinions.Trade
