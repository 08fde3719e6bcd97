import Mathlib

/-! Fallible computation. A function that may stop early is a `do` block in
`Except`; a guard is `refuse`, a checked machine operation is an `Option` lifted
by `okOr`. One inversion lemma per combinator reads a successful run backwards:
a block succeeded exactly when every guard passed and every step before the
result succeeded. -/

namespace Opinions.Lib.Result

variable {ε ε' α β : Type}

/-- Stop with `e` when `p` holds. -/
def refuse (p : Prop) [Decidable p] (e : ε) : Except ε Unit :=
  if p then .error e else .ok ()

/-- An absent value is the error `e`. -/
def okOr (o : Option α) (e : ε) : Except ε α := o.elim (.error e) .ok

variable {x : Except ε α} {f : α → Except ε β} {a : α} {p : Prop} {xs : List α} {ys : List β}

theorem bind_eq_ok {b : β} : (x >>= f) = .ok b ↔ ∃ a, x = .ok a ∧ f a = .ok b := by
  cases x with
  | error | ok => simp [Bind.bind, Except.bind]

theorem refuse_eq_ok [Decidable p] {e : ε} {u : Unit} : refuse p e = .ok u ↔ ¬p := by
  by_cases h : p <;> simp [refuse, h]

theorem okOr_eq_ok {o : Option α} {e : ε} : okOr o e = .ok a ↔ o = some a := by
  cases o <;> simp [okOr]

theorem mapError_eq_ok {f : ε → ε'} : x.mapError f = .ok a ↔ x = .ok a := by
  cases x <;> simp [Except.mapError]

theorem pure_eq_ok {b : α} : (pure a : Except ε α) = .ok b ↔ a = b := by
  simp [pure, Except.pure]

/-- The rules above and the one for pairs together: one rewrite reads a finished block
backwards. -/
theorem ok_iff :
    (∀ {ε α β : Type} {x : Except ε α} {f : α → Except ε β} {b : β},
      (x >>= f) = .ok b ↔ ∃ a, x = .ok a ∧ f a = .ok b) ∧
    (∀ {ε : Type} {p : Prop} [Decidable p] {e : ε} {u : Unit}, refuse p e = .ok u ↔ ¬p) ∧
    (∀ {ε α : Type} {o : Option α} {e : ε} {a : α}, okOr o e = .ok a ↔ o = some a) ∧
    (∀ {ε ε' α : Type} {f : ε → ε'} {x : Except ε α} {a : α},
      x.mapError f = .ok a ↔ x = .ok a) ∧
    (∀ {ε α : Type} {a b : α}, (pure a : Except ε α) = .ok b ↔ a = b) ∧
    ∀ {α β : Type} {a a' : α} {b b' : β}, (a, b) = (a', b') ↔ a = a' ∧ b = b' :=
  ⟨bind_eq_ok, refuse_eq_ok, okOr_eq_ok, mapError_eq_ok, pure_eq_ok, Prod.mk_inj⟩

theorem mapM_eq_ok : xs.mapM f = .ok ys ↔ List.Forall₂ (fun x y => f x = .ok y) xs ys := by
  induction xs generalizing ys with
  | nil =>
    rw [List.mapM_nil, pure_eq_ok, List.forall₂_nil_left_iff]
    exact eq_comm
  | cons x xs ih =>
    simp only [List.mapM_cons, bind_eq_ok, pure_eq_ok, ih, List.forall₂_cons_left_iff]
    constructor
    · rintro ⟨y, hy, zs, hzs, rfl⟩
      exact ⟨y, zs, hy, hzs, rfl⟩
    · rintro ⟨y, zs, hy, hzs, rfl⟩
      exact ⟨y, hy, zs, hzs, rfl⟩

/-- A finished `mapM` has a result for each item and an item for each result. -/
theorem mem_of_mapM (h : xs.mapM f = .ok ys) :
    (∀ x ∈ xs, ∃ y ∈ ys, f x = .ok y) ∧ ∀ y ∈ ys, ∃ x ∈ xs, f x = .ok y := by
  rw [mapM_eq_ok] at h
  induction h with
  | nil => simp
  | cons hxy _ ih =>
    obtain ⟨hx, hy⟩ := ih
    simp only [List.mem_cons, forall_eq_or_imp, exists_eq_or_imp]
    exact ⟨⟨Or.inl hxy, fun x hxm => Or.inr (hx x hxm)⟩, Or.inl hxy,
      fun y hym => Or.inr (hy y hym)⟩

theorem map_eq_of_mapM {γ : Type} {g : β → γ} {k : α → γ} (h : xs.mapM f = .ok ys)
    (hgk : ∀ x y, f x = .ok y → g y = k x) :
    ys.map g = xs.map k := by
  rw [mapM_eq_ok] at h
  induction h with
  | nil => rfl
  | cons hxy _ ih => rw [List.map_cons, List.map_cons, hgk _ _ hxy, ih]

theorem mapM_total (h : ∀ x ∈ xs, ∃ y, f x = .ok y) : ∃ ys, xs.mapM f = .ok ys := by
  induction xs with
  | nil => exact ⟨[], rfl⟩
  | cons x xs ih =>
    obtain ⟨y, hy⟩ := h x List.mem_cons_self
    obtain ⟨ys, hys⟩ := ih fun z hz => h z (List.mem_cons_of_mem x hz)
    exact ⟨y :: ys, mapM_eq_ok.2 (.cons hy (mapM_eq_ok.1 hys))⟩

theorem forM_eq_ok {f : α → Except ε Unit} {u : Unit} :
    xs.forM f = .ok u ↔ ∀ x ∈ xs, f x = .ok () := by
  induction xs with
  | nil => simp [List.forM, pure, Except.pure]
  | cons x xs ih =>
    simp only [List.forM, bind_eq_ok, ih, List.mem_cons, forall_eq_or_imp]
    exact ⟨fun ⟨_, h⟩ => h, fun h => ⟨(), h⟩⟩

/-- What every step of a loop relates, the whole loop relates. -/
theorem foldlM_related {σ : Type} {R : σ → σ → Prop} (hrefl : ∀ s, R s s)
    (htrans : ∀ {s₁ s₂ s₃}, R s₁ s₂ → R s₂ s₃ → R s₁ s₃) {f : σ → α → Except ε σ}
    (hf : ∀ a s s', f s a = .ok s' → R s s') {s s' : σ} (h : xs.foldlM f s = .ok s') :
    R s s' := by
  induction xs generalizing s with
  | nil =>
    rw [List.foldlM_nil, pure_eq_ok] at h
    exact h ▸ hrefl s
  | cons a xs ih =>
    rw [List.foldlM_cons, bind_eq_ok] at h
    obtain ⟨s₁, ha, hrest⟩ := h
    exact htrans (hf a s s₁ ha) (ih hrest)

@[simp] theorem refuse_pos [Decidable p] (h : p) (e : ε) : refuse p e = .error e := by
  simp [refuse, h]

@[simp] theorem refuse_neg [Decidable p] (h : ¬p) (e : ε) : refuse p e = .ok () := by
  simp [refuse, h]

@[simp] theorem ok_bind (a : α) (f : α → Except ε β) : ((.ok a : Except ε α) >>= f) = f a := rfl

@[simp] theorem error_bind (e : ε) (f : α → Except ε β) :
    ((.error e : Except ε α) >>= f) = .error e := rfl

@[simp] theorem okOr_some (a : α) (e : ε) : okOr (some a) e = .ok a := rfl

@[simp] theorem okOr_none (e : ε) : okOr (none : Option α) e = .error e := rfl

theorem exists_of_isOk (h : x.isOk = true) : ∃ a, x = .ok a := by
  cases x with
  | error e => contradiction
  | ok a => exact ⟨a, rfl⟩

theorem map_eq_ok {f : α → β} {b : β} : x.map f = .ok b ↔ ∃ a, x = .ok a ∧ f a = b := by
  cases x <;> simp [Except.map]

/-- A success whose answer is dropped. -/
theorem map_snd_eq_ok {β : Type} {x : Except ε (α × β)} {b : β} :
    x.map Prod.snd = .ok b ↔ ∃ a, x = .ok (a, b) := by
  rcases x with e | ⟨a, b'⟩ <;> simp [Except.map]

end Opinions.Lib.Result
