import Opinions.Lib.Result

/-! Postconditions of fallible computations. `Ends P E x` says what a value of `x` meets
and what an error of `x` meets; the rules follow the way such code is written: a check,
a lookup, a sequence, a loop. -/

namespace Opinions.Lib.Outcome

open Lib.Result

variable {α β ε ε' : Type}

/-- `x` ends in a value of `P` or in an error of `E`. -/
def Ends (P : α → Prop) (E : ε → Prop) : Except ε α → Prop
  | .ok a => P a
  | .error e => E e

variable {P Q : α → Prop} {E : ε → Prop} {x : Except ε α}

theorem Ends.of_ok {a : α} (h : Ends P E x) (hx : x = .ok a) : P a := by
  subst hx
  exact h

theorem Ends.of_error {e : ε} (h : Ends P E x) (hx : x = .error e) : E e := by
  subst hx
  exact h

theorem ends_iff : Ends P E x ↔ (∀ a, x = .ok a → P a) ∧ ∀ e, x = .error e → E e := by
  constructor
  · intro h
    exact ⟨fun _ => h.of_ok, fun _ => h.of_error⟩
  · rintro ⟨hok, herror⟩
    cases x with
    | ok a => exact hok a rfl
    | error e => exact herror e rfl

theorem Ends.imp {F : ε → Prop} (h : Ends P E x) (hPQ : ∀ a, P a → Q a) (hEF : ∀ e, E e → F e) :
    Ends Q F x :=
  ends_iff.2 ⟨fun _ hx => hPQ _ (h.of_ok hx), fun _ hx => hEF _ (h.of_error hx)⟩

theorem Ends.mono (h : Ends P E x) (hPQ : ∀ a, P a → Q a) : Ends Q E x := h.imp hPQ fun _ => id

theorem ends_pure {a : α} (h : P a) : Ends P E (pure a : Except ε α) := h

theorem Ends.bind {P : α → Prop} {Q : β → Prop} {f : α → Except ε β} (hx : Ends P E x)
    (hf : ∀ a, P a → Ends Q E (f a)) : Ends Q E (x >>= f) := by
  cases x with
  | ok a => exact hf a hx
  | error => exact hx

theorem ends_refuse {p : Prop} [Decidable p] {e : ε} (h : E e := by rintro ⟨⟩) :
    Ends (fun _ => ¬p) E (refuse p e) := by
  by_cases hp : p
  · rwa [refuse_pos hp]
  · rwa [refuse_neg hp]

theorem ends_okOr {o : Option α} {e : ε} (h : E e := by rintro ⟨⟩) :
    Ends (fun a => o = some a) E (okOr o e) := by
  cases o with
  | none => exact h
  | some => rfl

theorem ends_mapError {E : ε' → Prop} {f : ε → ε'} (h : Ends P (fun e => E (f e)) x) :
    Ends P E (x.mapError f) := by
  cases x <;> exact h

theorem ends_map {P : β → Prop} {f : α → β} (h : Ends (fun a => P (f a)) E x) :
    Ends P E (x.map f) := by
  cases x <;> exact h

/-- What the error is does not matter when none of them can be of the bad kind. -/
theorem ends_error {E : ε' → Prop} {f : ε → ε'} (h : ∀ e, E (f e)) :
    Ends (fun a => x = .ok a) E (x.mapError f) := by
  cases x with
  | ok => rfl
  | error e => exact h e

/-- A loop that keeps `P` of the items still to come and the state so far. -/
theorem ends_foldlM {σ : Type} {P : List α → σ → Prop} {f : σ → α → Except ε σ} {xs : List α}
    {s : σ} (hs : P xs s) (hf : ∀ a rest s, P (a :: rest) s → Ends (P rest) E (f s a)) :
    Ends (P []) E (xs.foldlM f s) := by
  induction xs generalizing s with
  | nil => exact hs
  | cons a rest ih =>
    rw [List.foldlM_cons]
    exact (hf a rest s hs).bind fun s' hs' => ih hs'

theorem ends_forM {f : α → Except ε Unit} {xs : List α}
    (h : ∀ a ∈ xs, Ends (fun _ => True) E (f a)) : Ends (fun _ => True) E (xs.forM f) := by
  induction xs with
  | nil => trivial
  | cons a xs ih =>
    exact (h a List.mem_cons_self).bind fun _ _ => ih fun b hb => h b (List.mem_cons_of_mem a hb)

theorem ends_mapM {f : α → Except ε β} {xs : List α} (h : ∀ a ∈ xs, Ends (fun _ => True) E (f a)) :
    Ends (fun ys => xs.mapM f = .ok ys) E (xs.mapM f) := by
  induction xs with
  | nil => rfl
  | cons a xs ih =>
    rw [List.mapM_cons]
    have ha := h a List.mem_cons_self
    have hxs := ih fun b hb => h b (List.mem_cons_of_mem a hb)
    cases hfa : f a with
    | error => exact ha.of_error hfa
    | ok =>
      cases hrest : xs.mapM f with
      | error => exact hxs.of_error hrest
      | ok => rfl

end Opinions.Lib.Outcome
