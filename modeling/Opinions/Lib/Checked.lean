import Mathlib

/-! Fixed-width arithmetic over the integers. A machine integer is an `Int` or a
`Nat`, and a checked operation is its exact result guarded by the range of the
type: it is absent exactly when the exact result does not fit. -/

namespace Opinions.Lib.Checked

abbrev FitsI64 (x : Int) : Prop := -9223372036854775808 ≤ x ∧ x ≤ 9223372036854775807

abbrev FitsI128 (x : Int) : Prop :=
  -170141183460469231731687303715884105728 ≤ x ∧ x ≤ 170141183460469231731687303715884105727

abbrev FitsU128 (x : Nat) : Prop := x < 340282366920938463463374607431768211456

def tryI64 (x : Int) : Option Int := Option.guard (fun y => decide (FitsI64 y)) x

def checkedI128 (x : Int) : Option Int := Option.guard (fun y => decide (FitsI128 y)) x

def checkedU128 (x : Nat) : Option Nat := Option.guard (fun y => decide (FitsU128 y)) x

/-- Unsigned subtraction, absent below zero. -/
def checkedSub (a b : Nat) : Option Nat := if b ≤ a then some (a - b) else none

variable {x : Int}

theorem tryI64_eq_some {y : Int} : tryI64 x = some y ↔ x = y ∧ FitsI64 x := by
  simp only [tryI64, Option.guard_eq_some_iff, decide_eq_true_eq]

theorem checkedI128_eq_some {y : Int} : checkedI128 x = some y ↔ x = y ∧ FitsI128 x := by
  simp only [checkedI128, Option.guard_eq_some_iff, decide_eq_true_eq]

theorem checkedU128_eq_some {x y : Nat} : checkedU128 x = some y ↔ x = y ∧ FitsU128 x := by
  simp only [checkedU128, Option.guard_eq_some_iff, decide_eq_true_eq]

theorem checkedSub_eq_some {a b c : Nat} : checkedSub a b = some c ↔ b ≤ a ∧ c = a - b := by
  unfold checkedSub
  split_ifs with h
  · simp [h, eq_comm]
  · simp [h]

theorem tryI64_of_fits (h : FitsI64 x) : tryI64 x = some x :=
  tryI64_eq_some.2 ⟨rfl, h⟩

theorem checkedI128_of_fits (h : FitsI128 x) : checkedI128 x = some x :=
  checkedI128_eq_some.2 ⟨rfl, h⟩

theorem checkedU128_of_fits {x : Nat} (h : FitsU128 x) : checkedU128 x = some x :=
  checkedU128_eq_some.2 ⟨rfl, h⟩

theorem checkedSub_of_le {a b : Nat} (h : b ≤ a) : checkedSub a b = some (a - b) :=
  checkedSub_eq_some.2 ⟨h, rfl⟩

theorem fitsI64_natCast {n : Nat} (h : n ≤ 9223372036854775807) : FitsI64 n := by
  constructor <;> omega

theorem fitsI128_of_fitsI64 (h : FitsI64 x) : FitsI128 x := by
  constructor <;> omega

end Opinions.Lib.Checked
