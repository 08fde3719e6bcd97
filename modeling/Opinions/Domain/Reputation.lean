import Opinions.Lib.Checked
import Opinions.Lib.Result

/-! Voter reputation (`domain/src/reputation.rs`): an exponentially weighted
average in micro-units, rounded half up at every update. Each update stays between
the old reputation and the score, and the rounded average never drifts from the
exact one by more than the rounding of all steps, which the weight damps. -/

namespace Opinions.Domain.Reputation

open Lib.Checked Lib.Result

def unit : Int := 1000000

inductive HalfLife
  | h10
  | h20
  | h40

def HalfLife.kPpm : HalfLife → Int
  | .h10 => 933033
  | .h20 => 965936
  | .h40 => 982821

inductive RepError
  | operandOutOfRange

abbrev InUnit (x : Int) : Prop := 0 ≤ x ∧ x ≤ unit

def updateRep (rep score : Int) (h : HalfLife) : Except RepError Int := do
  refuse (¬InUnit rep ∨ ¬InUnit score) .operandOutOfRange
  let numerator := rep * h.kPpm + score * (unit - h.kPpm)
  okOr (tryI64 ((numerator + unit / 2).tdiv unit)) .operandOutOfRange

/-- One update of the exact average. -/
def exactStep (h : HalfLife) (e : ℚ) (score : Int) : ℚ :=
  (e * h.kPpm + score * (unit - h.kPpm)) / unit

/-- How far the rounded average can be from the exact one. -/
def drift (h : HalfLife) : ℚ := 500000 / (1000000 - h.kPpm)

variable {rep score next : Int} {h : HalfLife}

/-- An update is the exact average rounded to the nearest micro-unit. -/
theorem updateRep_eq_ok (hrep : InUnit rep) (hscore : InUnit score) :
    updateRep rep score h = .ok next ↔
      2 * next * unit ≤ 2 * (rep * h.kPpm + score * (unit - h.kPpm)) + unit ∧
        2 * (rep * h.kPpm + score * (unit - h.kPpm)) < 2 * next * unit + unit := by
  have hin : ¬(¬InUnit rep ∨ ¬InUnit score) := by simp [hrep, hscore]
  have hpos : 0 ≤ rep * h.kPpm + score * (unit - h.kPpm) + unit / 2 := by
    cases h <;> simp only [unit, HalfLife.kPpm, InUnit] at * <;> omega
  simp only [updateRep, refuse_neg hin, ok_iff, exists_const, tryI64_eq_some, true_and,
    Int.tdiv_eq_ediv_of_nonneg hpos, FitsI64]
  cases h <;> simp only [unit, HalfLife.kPpm, InUnit] at * <;> omega

theorem updateRep_succeeds (hrep : InUnit rep) (hscore : InUnit score) (h : HalfLife) :
    ∃ next, updateRep rep score h = .ok next := by
  simp only [updateRep_eq_ok hrep hscore]
  refine ⟨(rep * h.kPpm + score * (unit - h.kPpm) + 500000) / unit, ?_⟩
  simp only [unit]
  omega

theorem updateRep_between (hrep : InUnit rep) (hscore : InUnit score)
    (hnext : updateRep rep score h = .ok next) : min rep score ≤ next ∧ next ≤ max rep score := by
  rw [updateRep_eq_ok hrep hscore] at hnext
  cases h <;> simp only [unit, HalfLife.kPpm] at hnext <;> omega

theorem updateRep_inUnit (hrep : InUnit rep) (hscore : InUnit score)
    (hnext : updateRep rep score h = .ok next) : InUnit next := by
  have hbetween := updateRep_between hrep hscore hnext
  omega

theorem updateRep_mono {rep' score' next' : Int} (hrep : InUnit rep) (hscore : InUnit score)
    (hrep' : InUnit rep') (hscore' : InUnit score') (hr : rep ≤ rep') (hs : score ≤ score')
    (hnext : updateRep rep score h = .ok next) (hnext' : updateRep rep' score' h = .ok next') :
    next ≤ next' := by
  rw [updateRep_eq_ok hrep hscore] at hnext
  rw [updateRep_eq_ok hrep' hscore'] at hnext'
  cases h <;> simp only [unit, HalfLife.kPpm] at hnext hnext' <;> omega

/-- The weight takes from the drift what the rounding of one step adds. -/
theorem updateRep_drift {e : ℚ} (hrep : InUnit rep) (hscore : InUnit score)
    (hnext : updateRep rep score h = .ok next) (hdrift : |rep - e| < drift h) :
    |next - exactStep h e score| < drift h := by
  obtain ⟨hhigh, hlow⟩ := (updateRep_eq_ok hrep hscore).1 hnext
  have hhigh : (2 * next * unit : ℚ) ≤ 2 * (rep * h.kPpm + score * (unit - h.kPpm)) + unit := by
    exact_mod_cast hhigh
  have hlow : (2 * (rep * h.kPpm + score * (unit - h.kPpm)) : ℚ) < 2 * next * unit + unit := by
    exact_mod_cast hlow
  rw [abs_lt] at hdrift ⊢
  cases h <;> norm_num [unit, HalfLife.kPpm, drift, exactStep] at * <;>
    exact ⟨by linarith, by linarith⟩

/-- Every update of a run succeeds and keeps the drift bounded. -/
theorem run_drift {scores : List Int} (hscores : ∀ s ∈ scores, InUnit s) {e : ℚ}
    (hrep : InUnit rep) (hdrift : |rep - e| < drift h) :
    ∃ last, scores.foldlM (fun r s => updateRep r s h) rep = .ok last ∧ InUnit last ∧
      |last - scores.foldl (exactStep h) e| < drift h := by
  induction scores generalizing rep e with
  | nil => exact ⟨rep, rfl, hrep, hdrift⟩
  | cons s scores ih =>
    obtain ⟨hs, hscores⟩ := List.forall_mem_cons.1 hscores
    obtain ⟨next, hnext⟩ := updateRep_succeeds hrep hs h
    obtain ⟨last, hlast⟩ := ih hscores (updateRep_inUnit hrep hs hnext)
      (updateRep_drift hrep hs hnext hdrift)
    exact ⟨last, by rw [List.foldlM_cons, hnext]; exact hlast.1, hlast.2⟩

/-- Reputation tracks its exact average. -/
theorem reputation_tracks (h : HalfLife) (hrep : InUnit rep) {scores : List Int}
    (hscores : ∀ s ∈ scores, InUnit s) :
    (∀ score, InUnit score → ∃ next, updateRep rep score h = .ok next ∧ InUnit next ∧
      min rep score ≤ next ∧ next ≤ max rep score ∧
      ∀ rep' score' next', InUnit rep' → InUnit score' → rep ≤ rep' → score ≤ score' →
        updateRep rep' score' h = .ok next' → next ≤ next') ∧
    ∃ last, scores.foldlM (fun r s => updateRep r s h) rep = .ok last ∧ InUnit last ∧
      |last - scores.foldl (exactStep h) rep| < drift h := by
  refine ⟨fun score hscore => ?_, run_drift hscores hrep ?_⟩
  · obtain ⟨next, hnext⟩ := updateRep_succeeds hrep hscore h
    obtain ⟨hmin, hmax⟩ := updateRep_between hrep hscore hnext
    refine ⟨next, hnext, updateRep_inUnit hrep hscore hnext, hmin, hmax, ?_⟩
    intro rep' score' next' hrep' hscore' hr hs hnext'
    exact updateRep_mono hrep hscore hrep' hscore' hr hs hnext hnext'
  · rw [sub_self, abs_zero]
    cases h <;> norm_num [drift, HalfLife.kPpm]

theorem reputation_tracks_one :
    ∃ last, [1000000].foldlM (fun r s => updateRep r s .h10) 0 = .ok last ∧ InUnit last ∧
      |last - [1000000].foldl (exactStep .h10) ((0 : Int) : ℚ)| < drift .h10 :=
  (reputation_tracks .h10 (by decide) (by decide)).2

end Opinions.Domain.Reputation
