import Mathlib

/-! Keyed rows. A table is a list of rows with a key function; `find` reads the
row of a key and `update` rewrites it in place. Where the keys are distinct a
key has one row, a lookup after an update is the updated row, and an integer
total over the table changes by exactly what its one row changes. -/

namespace Opinions.Lib.Rows

variable {κ ν : Type} [DecidableEq κ] (key : ν → κ)

def find (k : κ) (rows : List ν) : Option ν := rows.find? fun r => decide (key r = k)

def update (k : κ) (f : ν → ν) (rows : List ν) : List ν :=
  rows.map fun r => if key r = k then f r else r

/-- Replace the row with the same key, or append. -/
def upsert (row : ν) (rows : List ν) : List ν :=
  if key row ∈ rows.map key then update key (key row) (fun _ => row) rows else rows ++ [row]

@[simp] theorem find_nil (k : κ) : find key k [] = none := rfl

theorem find_cons (k : κ) (r : ν) (rows : List ν) :
    find key k (r :: rows) = if key r = k then some r else find key k rows := by
  by_cases h : key r = k <;> simp [find, h]

theorem mem_concat {x y : ν} {xs : List ν} : x ∈ xs ++ [y] ↔ x ∈ xs ∨ x = y := by
  rw [List.mem_append, List.mem_singleton]

variable {key} {k k' : κ} {r : ν} {rows : List ν} {f : ν → ν}

theorem mem_of_find (h : find key k rows = some r) : r ∈ rows := List.mem_of_find?_eq_some h

theorem key_of_find (h : find key k rows = some r) : key r = k := by
  simpa using List.find?_some h

theorem find_eq_none : find key k rows = none ↔ ∀ r ∈ rows, key r ≠ k := by
  simp [find]

theorem find_isSome : (find key k rows).isSome ↔ k ∈ rows.map key := by
  simp [find]

theorem find_of_mem (hnd : (rows.map key).Nodup) (hr : r ∈ rows) :
    find key (key r) rows = some r := by
  induction rows with
  | nil => simp at hr
  | cons x rows ih =>
    rw [List.map_cons, List.nodup_cons] at hnd
    rw [find_cons]
    rcases List.mem_cons.1 hr with rfl | hr'
    · rw [if_pos rfl]
    · have hne : key x ≠ key r := fun h => hnd.1 (h ▸ List.mem_map_of_mem hr')
      rw [if_neg hne, ih hnd.2 hr']

variable {x : ν} {g : ν → Int}

theorem mem_update : x ∈ update key k f rows ↔ ∃ r ∈ rows, (if key r = k then f r else r) = x := by
  simp [update]

theorem map_key_update (hf : ∀ r, key (f r) = key r) :
    (update key k f rows).map key = rows.map key := by
  rw [update, List.map_map]
  refine List.map_congr_left fun r _ => ?_
  dsimp only [Function.comp_apply]
  split_ifs
  · exact hf r
  · rfl

theorem update_eq_self (h : ∀ r ∈ rows, key r = k → f r = r) : update key k f rows = rows := by
  refine (List.map_congr_left fun r hr => ?_).trans (List.map_id rows)
  split_ifs with hk
  · exact h r hr hk
  · rfl

theorem update_of_notMem (h : k ∉ rows.map key) : update key k f rows = rows :=
  update_eq_self fun _ hr hk => absurd (hk ▸ List.mem_map_of_mem hr) h

/-- Rewriting the one row of a key writes that row's new value. -/
theorem update_eq_const (hnd : (rows.map key).Nodup) (hr : find key k rows = some r) :
    update key k f rows = update key k (fun _ => f r) rows := by
  refine List.map_congr_left fun x hx => ?_
  split_ifs with hk
  · have hfind := find_of_mem hnd hx
    rw [hk, hr, Option.some.injEq] at hfind
    rw [hfind]
  · rfl

theorem update_update {g : ν → ν} (hf : ∀ r, key r = k → key (f r) = k) :
    update key k g (update key k f rows) = update key k (fun r => g (f r)) rows := by
  rw [update, update, List.map_map]
  refine List.map_congr_left fun r _ => ?_
  dsimp only [Function.comp_apply]
  by_cases hk : key r = k
  · rw [if_pos hk, if_pos hk, if_pos (hf r hk)]
  · rw [if_neg hk, if_neg hk, if_neg hk]

theorem update_concat (hnd : ((rows ++ [r]).map key).Nodup) :
    update key (key r) f (rows ++ [r]) = rows ++ [f r] := by
  rw [List.map_append, List.map_singleton, ← List.concat_eq_append, List.nodup_concat] at hnd
  have hrows := update_of_notMem (f := f) hnd.1
  rw [update] at hrows ⊢
  rw [List.map_append, hrows]
  simp

theorem find_map (hf : ∀ r, key (f r) = key r) :
    find key k (rows.map f) = (find key k rows).map f := by
  induction rows with
  | nil => rfl
  | cons x rows ih =>
    rw [List.map_cons, find_cons, find_cons, hf, ih]
    split_ifs <;> rfl

theorem find_append (xs ys : List ν) :
    find key k (xs ++ ys) = (find key k xs).or (find key k ys) := by
  rw [find, List.find?_append]
  rfl

theorem find_filter_ne :
    find key k (rows.filter fun r => decide (key r ≠ k')) =
      if k = k' then none else find key k rows := by
  induction rows with
  | nil => simp
  | cons x rows ih =>
    rw [List.filter_cons, find_cons]
    by_cases hx : key x = k'
    · rw [if_neg (by simp [hx]), ih, hx]
      grind
    · rw [if_pos (by simp [hx]), find_cons, ih]
      grind

theorem find_update_self (hf : ∀ r, key (f r) = key r) :
    find key k (update key k f rows) = (find key k rows).map f := by
  induction rows with
  | nil => rfl
  | cons x rows ih =>
    rw [update, List.map_cons, find_cons, find_cons, ← update]
    by_cases h : key x = k
    · simp [h, hf]
    · simp [h, ih]

theorem find_update_of_ne (hf : ∀ r, key (f r) = key r) (hne : k' ≠ k) :
    find key k' (update key k f rows) = find key k' rows := by
  induction rows with
  | nil => rfl
  | cons x rows ih =>
    rw [update, List.map_cons, find_cons, find_cons, ← update, ih]
    by_cases h : key x = k
    · have hx : key x ≠ k' := fun h' => hne (h' ▸ h)
      simp [h, hf, hne.symm]
    · simp [h]

section Upsert

variable {row : ν}

theorem find_upsert_self (hk : key row = k) : find key k (upsert key row rows) = some row := by
  subst hk
  unfold upsert
  split_ifs with h
  · obtain ⟨r, hr⟩ := Option.isSome_iff_exists.1 (find_isSome.2 h)
    clear h
    induction rows with
    | nil => simp at hr
    | cons x rows ih =>
      rw [update, List.map_cons, find_cons, ← update]
      rw [find_cons] at hr
      by_cases hx : key x = key row
      · simp [hx]
      · rw [if_neg hx] at hr
        simp [hx, ih hr]
  · have hnone : find key (key row) rows = none := by
      rwa [← Option.not_isSome_iff_eq_none, find_isSome]
    rw [find_append, hnone, Option.none_or, find_cons, if_pos rfl]

theorem find_upsert_of_ne (hne : k ≠ key row) :
    find key k (upsert key row rows) = find key k rows := by
  unfold upsert
  split_ifs with h
  · clear h
    induction rows with
    | nil => rfl
    | cons x rows ih =>
      rw [update, List.map_cons, find_cons, find_cons, ← update, ih]
      by_cases hx : key x = key row
      · simp [hx, hne.symm]
      · simp [hx]
  · rw [find_append, find_cons, if_neg hne.symm, find_nil, Option.or_none]

theorem find_upsert :
    find key k (upsert key row rows) = if k = key row then some row else find key k rows := by
  split_ifs with h
  · exact find_upsert_self h.symm
  · exact find_upsert_of_ne h

theorem map_key_upsert :
    (upsert key row rows).map key =
      if key row ∈ rows.map key then rows.map key else rows.map key ++ [key row] := by
  unfold upsert
  split_ifs with h
  · rw [update, List.map_map]
    refine List.map_congr_left fun r _ => ?_
    dsimp only [Function.comp_apply]
    split_ifs with hr
    · exact hr.symm
    · rfl
  · rw [List.map_append, List.map_singleton]

theorem mem_keys_upsert : k ∈ (upsert key row rows).map key ↔ k = key row ∨ k ∈ rows.map key := by
  rw [map_key_upsert]
  split_ifs with h
  · exact ⟨Or.inr, fun h' => h'.elim (fun e => e ▸ h) id⟩
  · rw [List.mem_append, List.mem_singleton, or_comm]

theorem nodup_upsert (hnd : (rows.map key).Nodup) : ((upsert key row rows).map key).Nodup := by
  rw [map_key_upsert]
  split_ifs with h
  · exact hnd
  · simpa using hnd.concat h

theorem mem_of_mem_upsert (h : x ∈ upsert key row rows) : x = row ∨ x ∈ rows := by
  unfold upsert at h
  split_ifs at h with hk
  · obtain ⟨r, hr, rfl⟩ := mem_update.1 h
    split_ifs
    · exact Or.inl rfl
    · exact Or.inr hr
  · rcases List.mem_append.1 h with h | h
    · exact Or.inr h
    · exact Or.inl (List.mem_singleton.1 h)

/-- No other row has the key of the row that was saved. -/
theorem eq_of_mem_upsert (h : x ∈ upsert key row rows) (hk : key x = key row) : x = row := by
  unfold upsert at h
  split_ifs at h with hmem
  · obtain ⟨r, hr, rfl⟩ := mem_update.1 h
    split_ifs at hk ⊢ with hr'
    · rfl
    · exact absurd hk hr'
  · rcases List.mem_append.1 h with h | h
    · exact absurd (hk ▸ List.mem_map_of_mem h) hmem
    · exact List.mem_singleton.1 h

end Upsert

section Totals

omit [DecidableEq κ] in
theorem sum_nonneg (h : ∀ r ∈ rows, 0 ≤ g r) : 0 ≤ (rows.map g).sum := by
  induction rows with
  | nil => exact le_rfl
  | cons r rows ih =>
    have hr := h r List.mem_cons_self
    have := ih fun x hx => h x (List.mem_cons_of_mem r hx)
    rw [List.map_cons, List.sum_cons]
    omega

theorem sum_nonpos (h : ∀ r ∈ rows, g r ≤ 0) : (rows.map g).sum ≤ 0 := by
  induction rows with
  | nil => exact le_rfl
  | cons r rows ih =>
    have hr := h r List.mem_cons_self
    have := ih fun x hx => h x (List.mem_cons_of_mem r hx)
    rw [List.map_cons, List.sum_cons]
    omega

/-- One negative term among terms that are at most zero. -/
theorem sum_neg_of_mem (h : ∀ r ∈ rows, g r ≤ 0) (hr : r ∈ rows) (hneg : g r < 0) :
    (rows.map g).sum < 0 := by
  obtain ⟨xs, ys, rfl⟩ := List.append_of_mem hr
  have hxs : (xs.map g).sum ≤ 0 := sum_nonpos fun x hx => h x (List.mem_append_left _ hx)
  have hys : (ys.map g).sum ≤ 0 :=
    sum_nonpos fun y hy => h y (List.mem_append_right _ (List.mem_cons_of_mem _ hy))
  rw [List.map_append, List.sum_append, List.map_cons, List.sum_cons]
  omega

/-- A sum over some of the rows, as a sum over all of them. -/
theorem sum_filter (p : ν → Bool) (g : ν → Int) (rows : List ν) :
    ((rows.filter p).map g).sum = (rows.map fun r => if p r then g r else 0).sum := by
  induction rows with
  | nil => rfl
  | cons r rows ih =>
    rw [List.map_cons, List.sum_cons, ← ih, List.filter_cons]
    split_ifs <;> simp

/-- The one row of a key, summed over the whole table. -/
theorem sum_single (hnd : (rows.map key).Nodup) (g : ν → Int) :
    (rows.map fun r => if key r = k then g r else 0).sum = (find key k rows).elim 0 g := by
  induction rows with
  | nil => rfl
  | cons x rows ih =>
    rw [List.map_cons, List.nodup_cons] at hnd
    rw [List.map_cons, List.sum_cons, find_cons, ih hnd.2]
    by_cases h : key x = k
    · have hnone : find key k rows = none :=
        find_eq_none.2 fun r hr hk => hnd.1 (h ▸ hk ▸ List.mem_map_of_mem hr)
      simp [h, hnone]
    · simp [h]

/-- A join on a key of its own finds the rows of one. -/
theorem flatMap_single {α : Type} (hnd : (rows.map key).Nodup) (g : ν → List α) :
    (rows.flatMap fun r => if key r = k then g r else []) = (find key k rows).elim [] g := by
  induction rows with
  | nil => rfl
  | cons x rows ih =>
    rw [List.map_cons, List.nodup_cons] at hnd
    rw [List.flatMap_cons, ih hnd.2, find_cons]
    split_ifs with hk
    · have hnone : find key k rows = none :=
        find_eq_none.2 fun r hr heq => hnd.1 (hk.trans heq.symm ▸ List.mem_map_of_mem hr)
      rw [hnone]
      simp
    · rfl

theorem sum_update (hnd : (rows.map key).Nodup) (hr : find key k rows = some r) (g : ν → Int) :
    ((update key k f rows).map g).sum = (rows.map g).sum + (g (f r) - g r) := by
  have hpoint : (update key k f rows).map g =
      rows.map fun x => g x + if key x = k then g (f x) - g x else 0 := by
    rw [update, List.map_map]
    refine List.map_congr_left fun x _ => ?_
    dsimp only [Function.comp_apply]
    split_ifs <;> omega
  rw [hpoint, List.sum_map_add, sum_single hnd, hr]
  rfl

/-- A total after an upsert: the row's share replaces that of the old row. -/
theorem sum_upsert {row : ν} (hnd : (rows.map key).Nodup) (g : ν → Int) :
    ((upsert key row rows).map g).sum =
      (rows.map g).sum + (g row - (find key (key row) rows).elim 0 g) := by
  unfold upsert
  split_ifs with h
  · obtain ⟨r, hr⟩ := Option.isSome_iff_exists.1 (find_isSome.2 h)
    rw [sum_update hnd hr, hr]
    rfl
  · have hnone : find key (key row) rows = none := by
      rwa [← Option.not_isSome_iff_eq_none, find_isSome]
    rw [hnone, List.map_append, List.sum_append]
    simp

end Totals

end Opinions.Lib.Rows
