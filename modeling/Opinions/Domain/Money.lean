import Opinions.Lib.Checked
import Opinions.Lib.Result

/-! Integer money (`domain/src/money.rs`). An amount of micro-USD or of
micro-shares is an `Int` with the signed 64-bit range checked where the source
converts, and a fee rate is a `Nat` of basis points. The fee rounds up, and the
split reassembles to the gross amount exactly. -/

namespace Opinions.Domain.Money

open Lib.Checked Lib.Result

/-- A gross amount split into `net` and `fee`. -/
structure FeeSplit where
  net : Int
  fee : Int

inductive MoneyError
  | negativeAmount
  | overflow
  | feeTooHigh

/-- The fee is `⌈gross · fee / 10000⌉`; the product stays inside 128 bits. -/
def applyFee (gross : Int) (fee : Nat) : Except MoneyError FeeSplit := do
  refuse (gross < 0) .negativeAmount
  refuse (10000 < fee) .feeTooHigh
  let f := (gross * fee + 9999) / 10000
  let feeAmt ← okOr (tryI64 f) .overflow
  pure { net := gross - feeAmt, fee := feeAmt }

variable {gross : Int} {fee : Nat}

theorem applyFee_spec {s : FeeSplit} (h : applyFee gross fee = .ok s) :
    0 ≤ gross ∧ fee ≤ 10000 ∧ s.net + s.fee = gross ∧ 0 ≤ s.fee ∧ 0 ≤ s.net := by
  simp only [applyFee, tryI64_eq_some, ok_iff] at h
  obtain ⟨_, hg, _, hf, f, ⟨rfl, _⟩, rfl⟩ := h
  have hg' : 0 ≤ gross := by omega
  have hf' : fee ≤ 10000 := by omega
  have hprod : gross * fee ≤ gross * 10000 :=
    mul_le_mul_of_nonneg_left (by exact_mod_cast hf') hg'
  have hpos : 0 ≤ gross * (fee : Int) := mul_nonneg hg' (Int.natCast_nonneg fee)
  refine ⟨hg', hf', by dsimp only; omega, ?_, ?_⟩ <;> dsimp only <;> omega

/-- What a fee rounded up leaves of a gross amount. -/
def netOf (gross : Int) (fee : Nat) : Int := gross - (gross * fee + 9999) / 10000

/-- Rounding every part separately costs at least as much as rounding the whole. -/
theorem netOf_add_le (x y : Int) (fee : Nat) : netOf x fee + netOf y fee ≤ netOf (x + y) fee := by
  simp only [netOf, add_mul]
  omega

theorem netOf_nonneg (hg : 0 ≤ gross) (hf : fee ≤ 10000) : 0 ≤ netOf gross fee := by
  have hprod : gross * fee ≤ gross * 10000 :=
    mul_le_mul_of_nonneg_left (by exact_mod_cast hf) hg
  rw [netOf]
  omega

theorem netOf_mono {x y : Int} (hxy : x ≤ y) (hf : fee ≤ 10000) : netOf x fee ≤ netOf y fee := by
  have hstep := netOf_add_le x (y - x) fee
  have hgap := netOf_nonneg (sub_nonneg.2 hxy) hf
  rw [add_sub_cancel] at hstep
  omega

theorem netOf_le (hg : 0 ≤ gross) (fee : Nat) : netOf gross fee ≤ gross := by
  have hpos : 0 ≤ gross * (fee : Int) := mul_nonneg hg (Int.natCast_nonneg fee)
  rw [netOf]
  omega

/-- Below the full rate the net amount is a fixed share of the gross, up to one unit. -/
theorem lt_of_netOf_ne_zero (hg : 0 ≤ gross) (hf : fee ≤ 10000) (hnet : netOf gross fee ≠ 0) :
    gross < 20000 * netOf gross fee := by
  rw [netOf] at hnet ⊢
  have hlt : fee ≤ 9999 := by
    by_contra hfull
    obtain rfl : fee = 10000 := by omega
    push_cast at hnet
    omega
  have hprod : gross * fee ≤ gross * 9999 :=
    mul_le_mul_of_nonneg_left (by exact_mod_cast hlt) hg
  omega

theorem applyFee_ok (hg : 0 ≤ gross) (hfit : FitsI64 gross) (hf : fee ≤ 10000) :
    applyFee gross fee = .ok ⟨netOf gross fee, gross - netOf gross fee⟩ := by
  have hn := netOf_nonneg hg hf
  have hle := netOf_le hg fee
  simp only [netOf] at hn hle
  have hfits : FitsI64 ((gross * fee + 9999) / 10000) := by constructor <;> omega
  simp only [applyFee, refuse_neg (not_lt.2 hg), refuse_neg (not_lt.2 hf), tryI64_of_fits hfits]
  simp [netOf, pure, Except.pure]

end Opinions.Domain.Money
