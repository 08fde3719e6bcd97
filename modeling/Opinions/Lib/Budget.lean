import Opinions.Lib.Flight

/-! Shared budgets. A transaction that is going to spend from a budget reads what is left
of it and has a claim on that much from then on; it spends when it ends. While no budget
is claimed by two transactions at once, no budget is overspent. -/

namespace Opinions.Lib.Budget

open Lib

variable {σ κ ρ : Type} {cap spent : ρ → Int} {claim : σ → ρ → Int} {f f' : Flight σ κ}

def claimed (claim : σ → ρ → Int) (f : Flight σ κ) (i : Nat) (r : ρ) : Int :=
  (f.session i).elim 0 fun s => claim s r

/-- No budget is overspent, not even if one transaction spends all it has a claim on. -/
structure Sound (cap spent : ρ → Int) (claim : σ → ρ → Int) (f : Flight σ κ) : Prop where
  nonneg : ∀ i r, 0 ≤ claimed claim f i r
  within : ∀ i r, spent r + claimed claim f i r ≤ cap r
  alone : ∀ i j r, i ≠ j → claimed claim f i r = 0 ∨ claimed claim f j r = 0

variable {i : Nat}

theorem claimed_of_session {s : σ} (h : f.session i = some s) (r : ρ) :
    claimed claim f i r = claim s r := by
  rw [claimed, h]
  rfl

theorem claimed_eq_zero {r : ρ} (h : ∀ s, f.session i = some s → claim s r = 0) :
    claimed claim f i r = 0 := by
  cases hs : f.session i with
  | none => rw [claimed, hs, Option.elim_none]
  | some s => rw [claimed_of_session hs, h s hs]

theorem claimed_grown (hg : Flight.Grown f f') : claimed claim f' = claimed claim f := by
  funext i r
  rw [claimed, claimed, hg.session_eq]

theorem claimed_put (i j : Nat) (s : σ) (r : ρ) :
    claimed claim (f.put i s) j r = if j = i then claim s r else claimed claim f j r := by
  rw [claimed, Flight.session_put]
  split_ifs <;> rfl

theorem claimed_finish (i j : Nat) (r : ρ) :
    claimed claim (f.finish i) j r = if j = i then 0 else claimed claim f j r := by
  rw [claimed, Flight.session_finish]
  split_ifs <;> rfl

namespace Sound

theorem empty (h : ∀ r, spent r ≤ cap r) : Sound cap spent claim (Flight.empty : Flight σ κ) where
  nonneg := fun _ _ => le_rfl
  within := fun _ r => (add_zero (spent r)).trans_le (h r)
  alone := fun _ _ _ _ => Or.inl rfl

theorem spent_le (h : Sound cap spent claim f) (r : ρ) : spent r ≤ cap r := by
  have hnonneg := h.nonneg 0 r
  have hwithin := h.within 0 r
  omega

/-- Larger budgets of which no more is spent. -/
theorem widen (h : Sound cap spent claim f) {cap' spent' : ρ → Int} (hcap : ∀ r, cap r ≤ cap' r)
    (hspent : ∀ r, spent' r ≤ spent r) : Sound cap' spent' claim f where
  nonneg := h.nonneg
  within := by
    intro i r
    have hwithin := h.within i r
    have := hcap r
    have := hspent r
    omega
  alone := h.alone

theorem grown (h : Sound cap spent claim f) (hg : Flight.Grown f f') :
    Sound cap spent claim f' := by
  have heq : claimed claim f' = claimed claim f := claimed_grown hg
  exact ⟨heq ▸ h.nonneg, heq ▸ h.within, heq ▸ h.alone⟩

/-- A statement of one transaction: per budget it keeps or lowers its claim, or it claims
what is left of a budget that nobody else has a claim on. -/
theorem put (h : Sound cap spent claim f) (hg : Flight.Grown f f') {s : σ}
    (hnonneg : ∀ r, 0 ≤ claim s r)
    (htake : ∀ r, claim s r ≤ claimed claim f i r ∨
      spent r + claim s r ≤ cap r ∧ ∀ j, j ≠ i → claimed claim f j r = 0) :
    Sound cap spent claim (f'.put i s) where
  nonneg := by
    intro j r
    rw [claimed_put, claimed_grown hg]
    split_ifs
    · exact hnonneg r
    · exact h.nonneg j r
  within := by
    intro j r
    have hi := h.within i r
    rw [claimed_put, claimed_grown hg]
    split_ifs
    · rcases htake r with hle | ⟨hfree, -⟩
      · omega
      · exact hfree
    · exact h.within j r
  alone := by
    -- only the pair of the new state with another transaction is new
    have hother : ∀ j r, j ≠ i → claim s r = 0 ∨ claimed claim f j r = 0 := by
      intro j r hne
      have hs := hnonneg r
      rcases htake r with hle | ⟨-, hfree⟩
      · rcases h.alone i j r hne.symm with hzero | hzero
        · exact Or.inl (by omega)
        · exact Or.inr hzero
      · exact Or.inr (hfree j hne)
    intro j k r hne
    rw [claimed_put, claimed_put, claimed_grown hg]
    by_cases hj : j = i
    · have hk : k ≠ i := fun hk => hne (hj.trans hk.symm)
      rw [if_pos hj, if_neg hk]
      exact hother k r hk
    · by_cases hk : k = i
      · rw [if_neg hj, if_pos hk]
        exact (hother j r hj).symm
      · rw [if_neg hj, if_neg hk]
        exact h.alone j k r hne

/-- The end of a transaction that spends no more than it had a claim on. -/
theorem finish (h : Sound cap spent claim f) {spent' : ρ → Int}
    (hspent : ∀ r, spent' r ≤ spent r + claimed claim f i r) :
    Sound cap spent' claim (f.finish i) where
  nonneg := by
    intro j r
    rw [claimed_finish]
    split_ifs
    · exact le_rfl
    · exact h.nonneg j r
  within := by
    intro j r
    have hr := hspent r
    have hi := h.within i r
    have hj := h.within j r
    rw [claimed_finish]
    split_ifs with hji
    · omega
    · rcases h.alone i j r (Ne.symm hji) with hzero | hzero <;> omega
  alone := by
    intro j k r hne
    rw [claimed_finish, claimed_finish]
    split_ifs
    · exact Or.inl rfl
    · exact Or.inl rfl
    · exact Or.inr rfl
    · exact h.alone j k r hne

end Sound

end Opinions.Lib.Budget
