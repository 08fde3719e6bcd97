import Mathlib

/-! Numbered successors. In a lineage every item carries the number after the one
before it and names that item as its parent, so the numbers have no gap and the
items are in order. -/

namespace Opinions.Lib.Lineage

/-- How an item shows its identity, its number and its parent. -/
structure Scheme (α κ : Type) where
  id : α → κ
  number : α → Int
  parent : α → Option κ

variable {α κ : Type} (s : Scheme α κ)

/-- The items follow `prev` with the numbers `n`, `n + 1`, … -/
def Follows (prev : Option κ) (n : Int) : List α → Prop
  | [] => True
  | a :: as => s.number a = n ∧ s.parent a = prev ∧ Follows (some (s.id a)) (n + 1) as

/-- The item a further one would have to name. -/
def last (prev : Option κ) (xs : List α) : Option κ := xs.getLast?.elim prev fun a => some (s.id a)

@[simp] theorem last_nil (prev : Option κ) : last s prev [] = prev := rfl

theorem last_cons (prev : Option κ) (a : α) (xs : List α) :
    last s prev (a :: xs) = last s (some (s.id a)) xs := by
  cases xs with
  | nil => rfl
  | cons => simp [last, List.getLast?_cons]

variable {s} {prev : Option κ} {n : Int} {xs ys : List α}

theorem follows_append :
    Follows s prev n (xs ++ ys) ↔
      Follows s prev n xs ∧ Follows s (last s prev xs) (n + xs.length) ys := by
  induction xs generalizing prev n with
  | nil => simp [Follows]
  | cons a xs ih =>
    have hlen : n + 1 + (xs.length : Int) = n + ((a :: xs).length : Int) := by
      rw [List.length_cons]
      push_cast
      ring
    rw [List.cons_append, Follows, ih, Follows, last_cons, hlen]
    tauto

/-- A further item takes the next number and names the last item. -/
theorem follows_concat {a : α} :
    Follows s prev n (xs ++ [a]) ↔
      Follows s prev n xs ∧ s.number a = n + xs.length ∧ s.parent a = last s prev xs := by
  rw [follows_append]
  simp [Follows]

theorem Follows.number_ge (h : Follows s prev n xs) {a : α} (ha : a ∈ xs) : n ≤ s.number a := by
  induction xs generalizing prev n with
  | nil => simp at ha
  | cons b xs ih =>
    obtain ⟨hb, -, hxs⟩ := h
    rcases List.mem_cons.1 ha with rfl | ha
    · exact hb.ge
    · have := ih hxs ha
      omega

theorem Follows.pairwise (h : Follows s prev n xs) :
    xs.Pairwise fun a b => s.number a < s.number b := by
  induction xs generalizing prev n with
  | nil => exact List.Pairwise.nil
  | cons a xs ih =>
    obtain ⟨ha, -, hxs⟩ := h
    refine List.Pairwise.cons (fun b hb => ?_) (ih hxs)
    have := hxs.number_ge hb
    omega

theorem Follows.numbers (h : Follows s prev n xs) :
    xs.map s.number = (List.range xs.length).map fun i : Nat => n + (i : Int) := by
  induction xs generalizing prev n with
  | nil => rfl
  | cons a xs ih =>
    obtain ⟨ha, -, hxs⟩ := h
    rw [List.map_cons, ha, ih hxs, List.length_cons, List.range_succ_eq_map, List.map_cons,
      List.map_map]
    refine List.cons_eq_cons.2 ⟨by simp, List.map_congr_left fun i _ => ?_⟩
    simp only [Function.comp_apply]
    push_cast
    ring

theorem Follows.parent (h : Follows s prev n xs) {l r : List α} {a b : α}
    (hxs : xs = l ++ a :: b :: r) : s.parent b = some (s.id a) := by
  rw [hxs, follows_append] at h
  exact h.2.2.2.2.1

/-- The first item names whatever the lineage follows. -/
theorem Follows.parent_head (h : Follows s prev n xs) {r : List α} {a : α} (hxs : xs = a :: r) :
    s.parent a = prev := by
  subst hxs
  exact h.2.1

/-- Rewriting what the scheme does not show keeps the lineage. -/
theorem Follows.map {f : α → α}
    (hf : ∀ a, s.id (f a) = s.id a ∧ s.number (f a) = s.number a ∧ s.parent (f a) = s.parent a)
    (h : Follows s prev n xs) : Follows s prev n (xs.map f) := by
  induction xs generalizing prev n with
  | nil => trivial
  | cons a xs ih =>
    obtain ⟨ha, hp, hxs⟩ := h
    obtain ⟨hid, hnum, hpar⟩ := hf a
    refine ⟨hnum.trans ha, hpar.trans hp, ?_⟩
    rw [hid]
    exact ih hxs

end Opinions.Lib.Lineage
