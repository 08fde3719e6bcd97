import Mathlib

/-! Runs of a fallible step function. A command that is refused leaves the state
as it was (its transaction rolls back), so a run over any command list ends in
some state. What every accepted step preserves, every run preserves. -/

namespace Opinions.Lib.Run

variable {σ α ε : Type} (step : σ → α → Except ε σ)

/-- One command: its result when accepted, the old state when refused. -/
def attempt (s : σ) (a : α) : σ :=
  match step s a with
  | .ok s' => s'
  | .error _ => s

def run (s : σ) (cmds : List α) : σ := cmds.foldl (attempt step) s

@[simp] theorem run_nil (s : σ) : run step s [] = s := rfl

@[simp] theorem run_cons (s : σ) (a : α) (cmds : List α) :
    run step s (a :: cmds) = run step (attempt step s a) cmds := rfl

theorem run_append (s : σ) (xs ys : List α) :
    run step s (xs ++ ys) = run step (run step s xs) ys := List.foldl_append

variable {step} {s : σ} {a : α}

theorem attempt_of_ok {s' : σ} (h : step s a = .ok s') : attempt step s a = s' := by
  simp [attempt, h]

theorem attempt_of_error {e : ε} (h : step s a = .error e) : attempt step s a = s := by
  simp [attempt, h]

variable {P : σ → Prop}

theorem attempt_preserves (hstep : ∀ s', step s a = .ok s' → P s') (hs : P s) :
    P (attempt step s a) := by
  cases h : step s a with
  | error => rwa [attempt_of_error h]
  | ok s' => rw [attempt_of_ok h]; exact hstep s' h

variable {cmds : List α}

/-- The invariant rule: a property kept by every accepted step of a command in
`cmds` is kept by the run. -/
theorem run_preserves (hstep : ∀ a ∈ cmds, ∀ s s', P s → step s a = .ok s' → P s') (hs : P s) :
    P (run step s cmds) := by
  induction cmds generalizing s with
  | nil => exact hs
  | cons a cmds ih =>
    rw [run_cons]
    refine ih (fun b hb => hstep b (List.mem_cons_of_mem a hb)) ?_
    exact attempt_preserves (fun s' h => hstep a List.mem_cons_self s s' hs h) hs

/-- Every command of the list meets `C` in the state it is attempted in. -/
def Along (step : σ → α → Except ε σ) (C : σ → α → Prop) : σ → List α → Prop
  | _, [] => True
  | s, a :: cmds => C s a ∧ Along step C (attempt step s a) cmds

instance decidableAlong {step : σ → α → Except ε σ} {C : σ → α → Prop}
    [∀ s a, Decidable (C s a)] : ∀ (s : σ) (cmds : List α), Decidable (Along step C s cmds)
  | _, [] => inferInstanceAs (Decidable True)
  | s, a :: cmds =>
    have : Decidable (Along step C (attempt step s a) cmds) := decidableAlong _ cmds
    inferInstanceAs (Decidable (C s a ∧ Along step C (attempt step s a) cmds))

variable {C : σ → α → Prop}

/-- The invariant rule under a condition on each command and the state before it. -/
theorem run_preserves_along (hstep : ∀ s a s', P s → C s a → step s a = .ok s' → P s') (hs : P s)
    (hC : Along step C s cmds) : P (run step s cmds) := by
  induction cmds generalizing s with
  | nil => exact hs
  | cons a cmds ih =>
    rw [run_cons]
    exact ih (attempt_preserves (fun s' h => hstep s a s' hs hC.1 h) hs) hC.2

theorem along_and {D : σ → α → Prop} :
    Along step (fun s a => C s a ∧ D s a) s cmds ↔ Along step C s cmds ∧ Along step D s cmds := by
  induction cmds generalizing s with
  | nil => simp [Along]
  | cons a cmds ih => rw [Along, Along, Along, ih, and_and_and_comm]

theorem along_append {xs ys : List α} :
    Along step C s (xs ++ ys) ↔ Along step C s xs ∧ Along step C (run step s xs) ys := by
  induction xs generalizing s with
  | nil => simp [Along]
  | cons x xs ih => rw [List.cons_append, Along, Along, ih, run_cons, and_assoc]

/-- A command in the middle of a run meets the condition where it is attempted. -/
theorem Along.here {xs ys : List α} (h : Along step C s (xs ++ a :: ys)) : C (run step s xs) a :=
  (along_append.1 h).2.1

/-- In the history `cmds` from `s`, the command `a` stands right after `before` and was
accepted there. -/
def AcceptedAfter (step : σ → α → Except ε σ) (s : σ) (cmds before : List α) (a : α) : Prop :=
  (∃ later, cmds = before ++ a :: later) ∧ ∃ s', step (run step s before) a = .ok s'

theorem AcceptedAfter.append {before : List α} (h : AcceptedAfter step s cmds before a)
    (more : List α) :
    AcceptedAfter step s (cmds ++ more) before a := by
  obtain ⟨⟨later, rfl⟩, hok⟩ := h
  exact ⟨⟨later ++ more, by simp⟩, hok⟩

theorem acceptedAfter_last {s' : σ} (h : step (run step s cmds) a = .ok s') :
    AcceptedAfter step s (cmds ++ [a]) cmds a :=
  ⟨⟨[], rfl⟩, s', h⟩

/-- The invariant rule for a property of the history as well as of the state it led to. -/
theorem run_remembers {P : List α → σ → Prop} (hstart : P [] s)
    (hok : ∀ cmds a s', P cmds (run step s cmds) → step (run step s cmds) a = .ok s' →
      P (cmds ++ [a]) s')
    (hrefused : ∀ cmds a, P cmds (run step s cmds) → P (cmds ++ [a]) (run step s cmds))
    (cmds : List α) : P cmds (run step s cmds) := by
  induction cmds using List.reverseRecOn with
  | nil => exact hstart
  | append_singleton cmds a ih =>
    rw [run_append, run_cons, run_nil]
    cases h : step (run step s cmds) a with
    | ok s' =>
      rw [attempt_of_ok h]
      exact hok cmds a s' ih h
    | error =>
      rw [attempt_of_error h]
      exact hrefused cmds a ih

end Opinions.Lib.Run
