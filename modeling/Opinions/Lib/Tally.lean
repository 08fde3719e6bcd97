import Opinions.Lib.Checked
import Opinions.Lib.Result
import Opinions.Lib.Rows

/-! Keyed totals in checked 128-bit arithmetic: the scratch map a loop fills with
`*m.entry(k).or_insert(0) += d`. A loop that classifies its items by key and adds
their amounts succeeds when every item has a key and the amounts together stay in
range, and then holds each key's exact sum, whatever the order of the items. -/

namespace Opinions.Lib.Tally

open Lib.Checked Lib.Result Lib.Rows

variable {κ β ε : Type} [DecidableEq κ]

/-- The total under `k`, zero when absent. -/
def amount (k : κ) (m : List (κ × Int)) : Int := (find Prod.fst k m).elim 0 Prod.snd

/-- Set the total under `k`, adding the key when absent. -/
def put (m : List (κ × Int)) (k : κ) (s : Int) : List (κ × Int) := upsert Prod.fst (k, s) m

/-- Add `d` to the total under `k`; absent when the sum leaves 128 bits. -/
def bump (m : List (κ × Int)) (k : κ) (d : Int) : Option (List (κ × Int)) :=
  (checkedI128 (amount k m + d)).map (put m k)

/-- The loop: find the key of each item, add its amount there. -/
def tally (key : β → Except ε κ) (val : β → Int) (overflow : ε) (xs : List β) :
    Except ε (List (κ × Int)) :=
  xs.foldlM (fun m x => do let k ← key x; okOr (bump m k (val x)) overflow) []

/-- The exact sum of the amounts of the items classified under `k`. -/
def sumAt (key : β → Except ε κ) (val : β → Int) (k : κ) (xs : List β) : Int :=
  (xs.map fun x => if (key x).toOption = some k then val x else 0).sum

theorem amount_put (m : List (κ × Int)) (k k' : κ) (s : Int) :
    amount k' (put m k s) = if k' = k then s else amount k' m := by
  unfold put amount
  by_cases hk : k' = k
  · subst hk
    rw [if_pos rfl, find_upsert_self (show (k', s).1 = k' from rfl)]
    rfl
  · rw [if_neg hk, find_upsert_of_ne hk]

variable {m : List (κ × Int)}

theorem mem_keys_put {k k' : κ} {s : Int} :
    k' ∈ (put m k s).map Prod.fst ↔ k' = k ∨ k' ∈ m.map Prod.fst :=
  mem_keys_upsert

theorem nodup_put (h : (m.map Prod.fst).Nodup) (k : κ) (s : Int) :
    ((put m k s).map Prod.fst).Nodup :=
  nodup_upsert h

theorem bump_eq_some {m' : List (κ × Int)} {k : κ} {d : Int} :
    bump m k d = some m' ↔ FitsI128 (amount k m + d) ∧ m' = put m k (amount k m + d) := by
  simp only [bump, Option.map_eq_some_iff, checkedI128_eq_some]
  exact ⟨fun ⟨_, ⟨rfl, hf⟩, h⟩ => ⟨hf, h.symm⟩, fun ⟨hf, h⟩ => ⟨_, ⟨rfl, hf⟩, h.symm⟩⟩

/-- All recorded totals are zero exactly when every key's total is. -/
theorem forall_snd_eq_zero (hm : (m.map Prod.fst).Nodup) :
    (∀ p ∈ m, p.2 = 0) ↔ ∀ k, amount k m = 0 := by
  constructor
  · intro h k
    unfold amount
    cases hf : find Prod.fst k m with
    | none => rfl
    | some p => exact h p (mem_of_find hf)
  · intro h p hp
    have := h p.1
    rwa [amount, find_of_mem hm hp] at this

variable {xs : List β}

theorem sumAt_perm (key : β → Except ε κ) (val : β → Int) (k : κ) {ys : List β} (h : xs.Perm ys) :
    sumAt key val k xs = sumAt key val k ys :=
  (h.map _).sum_eq

def weight (val : β → Int) (xs : List β) : Int := (xs.map fun x => ((val x).natAbs : Int)).sum

@[simp] theorem weight_nil (val : β → Int) : weight val [] = 0 := rfl

@[simp] theorem weight_cons (val : β → Int) (x : β) (xs : List β) :
    weight val (x :: xs) = (val x).natAbs + weight val xs := rfl

theorem weight_perm (val : β → Int) {ys : List β} (h : xs.Perm ys) :
    weight val xs = weight val ys :=
  (h.map _).sum_eq

theorem weight_nonneg (val : β → Int) (xs : List β) : 0 ≤ weight val xs := by
  induction xs with
  | nil => exact le_rfl
  | cons x xs ih => rw [weight_cons]; omega

theorem natAbs_amount_le (m : List (κ × Int)) (k : κ) :
    ((amount k m).natAbs : Int) ≤ weight Prod.snd m := by
  induction m with
  | nil => exact le_rfl
  | cons p m ih =>
    have := weight_nonneg Prod.snd m
    rw [weight_cons, amount, find_cons]
    by_cases h : p.1 = k
    · rw [if_pos h]
      dsimp only [Option.elim_some]
      omega
    · rw [if_neg h]
      change ((amount k m).natAbs : Int) ≤ _
      omega

/-- Adding under one key adds at most the absolute amount. -/
theorem weight_put_le (hm : (m.map Prod.fst).Nodup) (k : κ) (d : Int) :
    weight Prod.snd (put m k (amount k m + d)) ≤ weight Prod.snd m + d.natAbs := by
  unfold put weight
  rw [sum_upsert hm]
  dsimp only
  unfold amount
  cases find Prod.fst k m with
  | some p =>
    dsimp only [Option.elim_some]
    omega
  | none =>
    dsimp only [Option.elim_none]
    omega

section Loop

variable {key : β → Except ε κ} {val : β → Int} {overflow : ε}

/-- What a finished loop holds, from any starting totals. -/
theorem tally_from {acc : List (κ × Int)}
    (h : xs.foldlM (fun m x => do let k ← key x; okOr (bump m k (val x)) overflow) acc = .ok m)
    (hacc : (acc.map Prod.fst).Nodup) :
    (m.map Prod.fst).Nodup ∧
    (∀ k, amount k m = amount k acc + sumAt key val k xs) ∧
    (∀ k, k ∈ m.map Prod.fst ↔ k ∈ acc.map Prod.fst ∨ ∃ x ∈ xs, key x = .ok k) ∧
    weight Prod.snd m ≤ weight Prod.snd acc + weight val xs ∧
    ∀ x ∈ xs, ∃ k, key x = .ok k := by
  induction xs generalizing acc with
  | nil =>
    cases h
    exact ⟨hacc, by simp [sumAt], by simp, by simp, by simp⟩
  | cons x xs ih =>
    simp only [List.foldlM_cons, bump_eq_some, ok_iff] at h
    obtain ⟨_, ⟨k, hk, -, rfl⟩, h⟩ := h
    obtain ⟨hnd, hamt, hmem, hwt, hall⟩ := ih h (nodup_put hacc k _)
    refine ⟨hnd, fun k' => ?_, fun k' => ?_, ?_, ?_⟩
    · rw [hamt, amount_put]
      simp only [sumAt, List.map_cons, List.sum_cons, hk, Except.toOption, Option.some.injEq]
      by_cases hkk : k' = k
      · subst hkk
        simp [Int.add_assoc]
      · simp [hkk, Ne.symm hkk]
    · rw [hmem, mem_keys_put]
      simp only [List.mem_cons, exists_eq_or_imp, hk, Except.ok.injEq]
      rw [eq_comm (a := k'), or_assoc, or_left_comm]
    · have := weight_put_le hacc k (val x)
      rw [weight_cons]
      omega
    · rw [List.forall_mem_cons]
      exact ⟨⟨k, hk⟩, hall⟩

/-- The totals of a finished loop. -/
structure Tallied (key : β → Except ε κ) (val : β → Int) (xs : List β)
    (m : List (κ × Int)) : Prop where
  nodup : (m.map Prod.fst).Nodup
  amount_eq : ∀ k, amount k m = sumAt key val k xs
  mem_keys : ∀ k, k ∈ m.map Prod.fst ↔ ∃ x ∈ xs, key x = .ok k
  weight_le : weight Prod.snd m ≤ weight val xs
  keyed : ∀ x ∈ xs, ∃ k, key x = .ok k

theorem tally_spec (h : tally key val overflow xs = .ok m) : Tallied key val xs m := by
  obtain ⟨hnd, hamt, hmem, hwt, hall⟩ := tally_from h List.nodup_nil
  exact ⟨hnd, by simpa [amount] using hamt, by simpa using hmem, by simpa using hwt, hall⟩

/-- The loop finishes when every item has a key and the amounts stay in range
together, in any order. -/
theorem tally_total (hkey : ∀ x ∈ xs, ∃ k, key x = .ok k) (hw : FitsI128 (weight val xs)) :
    ∃ m, tally key val overflow xs = .ok m := by
  suffices hgen : ∀ (xs : List β) (acc : List (κ × Int)), (acc.map Prod.fst).Nodup →
      (∀ x ∈ xs, ∃ k, key x = .ok k) → FitsI128 (weight Prod.snd acc + weight val xs) →
      ∃ m, xs.foldlM (fun m x => do let k ← key x; okOr (bump m k (val x)) overflow) acc
        = .ok m by
    exact hgen xs [] List.nodup_nil hkey (by simpa using hw)
  intro xs
  induction xs with
  | nil => exact fun acc _ _ _ => ⟨acc, rfl⟩
  | cons x xs ih =>
    intro acc hacc hkey hw
    obtain ⟨k, hk⟩ := hkey x List.mem_cons_self
    have hamt := natAbs_amount_le acc k
    have hxs := weight_nonneg val xs
    have hput := weight_put_le hacc k (val x)
    have hput' := weight_nonneg Prod.snd (put acc k (amount k acc + val x))
    rw [weight_cons] at hw
    have hfit : FitsI128 (amount k acc + val x) := by constructor <;> omega
    obtain ⟨m, hm⟩ := ih (put acc k (amount k acc + val x)) (nodup_put hacc k _)
      (fun y hy => hkey y (List.mem_cons_of_mem x hy)) (by constructor <;> omega)
    exact ⟨m, by rw [List.foldlM_cons, hk, ok_bind, bump_eq_some.2 ⟨hfit, rfl⟩, okOr_some,
      ok_bind, hm]⟩

end Loop

end Opinions.Lib.Tally
