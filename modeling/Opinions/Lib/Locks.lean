import Mathlib

/-! Advisory locks that are held until their owner ends. A lock is held by any
number of owners in shared mode or by one owner in exclusive mode; an owner never
conflicts with itself. -/

namespace Opinions.Lib.Locks

variable {ι κ : Type}

inductive Mode
  | shared
  | exclusive
  deriving DecidableEq

structure Hold (ι κ : Type) where
  owner : ι
  lock : κ
  mode : Mode
  deriving DecidableEq

abbrev Table (ι κ : Type) := List (Hold ι κ)

/-- Two holds that may stand together. -/
def Compatible (a b : Hold ι κ) : Prop :=
  a.owner = b.owner ∨ a.lock ≠ b.lock ∨ a.mode = .shared ∧ b.mode = .shared

def Safe (t : Table ι κ) : Prop := ∀ a ∈ t, ∀ b ∈ t, Compatible a b

theorem Compatible.refl (a : Hold ι κ) : Compatible a a := Or.inl rfl

theorem Compatible.symm {a b : Hold ι κ} (h : Compatible a b) : Compatible b a := by
  rcases h with h | h | ⟨ha, hb⟩
  · exact Or.inl h.symm
  · exact Or.inr (Or.inl h.symm)
  · exact Or.inr (Or.inr ⟨hb, ha⟩)

theorem safe_nil : Safe ([] : Table ι κ) := List.forall_mem_nil _

/-- An exclusive hold keeps every other owner off its lock. -/
theorem Safe.owner_eq {t : Table ι κ} (ht : Safe t) {i j : ι} {k : κ} {mode : Mode}
    (hi : ⟨i, k, .exclusive⟩ ∈ t) (hj : ⟨j, k, mode⟩ ∈ t) : i = j := by
  rcases ht _ hi _ hj with h | h | ⟨h, -⟩
  · exact h
  · exact absurd rfl h
  · cases h

section Owners

variable [DecidableEq ι]

def release (t : Table ι κ) (i : ι) : Table ι κ := t.filter fun h => decide (h.owner ≠ i)

theorem mem_release {t : Table ι κ} {i : ι} {h : Hold ι κ} :
    h ∈ release t i ↔ h ∈ t ∧ h.owner ≠ i := by
  simp only [release, List.mem_filter, decide_eq_true_eq]

theorem Safe.release {t : Table ι κ} (ht : Safe t) (i : ι) : Safe (release t i) :=
  fun a ha b hb => ht a (mem_release.1 ha).1 b (mem_release.1 hb).1

variable [DecidableEq κ]

instance (a b : Hold ι κ) : Decidable (Compatible a b) := by
  unfold Compatible
  infer_instance

/-- The table with a new hold, unless another owner is in the way. -/
def acquire (t : Table ι κ) (h : Hold ι κ) : Option (Table ι κ) :=
  if ∀ b ∈ t, Compatible h b then some (t ++ [h]) else none

theorem acquire_eq_some {t t' : Table ι κ} {h : Hold ι κ} :
    acquire t h = some t' ↔ (∀ b ∈ t, Compatible h b) ∧ t ++ [h] = t' := by
  simp only [acquire, Option.ite_none_right_eq_some, Option.some.injEq]

theorem Safe.acquire {t t' : Table ι κ} {h : Hold ι κ} (ht : Safe t)
    (hacq : acquire t h = some t') : Safe t' := by
  obtain ⟨hcomp, rfl⟩ := acquire_eq_some.1 hacq
  intro a ha b hb
  rcases List.mem_append.1 ha with hat | hat <;> rcases List.mem_append.1 hb with hbt | hbt
  · exact ht a hat b hbt
  · obtain rfl := List.mem_singleton.1 hbt
    exact (hcomp a hat).symm
  · obtain rfl := List.mem_singleton.1 hat
    exact hcomp b hbt
  · obtain rfl := List.mem_singleton.1 hat
    obtain rfl := List.mem_singleton.1 hbt
    exact Compatible.refl _

end Owners

end Opinions.Lib.Locks
