import Opinions.Lib.Locks
import Opinions.Lib.Result
import Opinions.Lib.Rows

/-! Transactions in flight. Each has a number, its private state and the exclusive
locks it took; it keeps all of them until it ends, and then loses them together. -/

namespace Opinions.Lib

open Lib.Locks Lib.Result Lib.Rows

variable {σ κ ε : Type}

/-- Why a statement does not run: it waits for a lock, it is out of turn, or its
transaction is refused. -/
inductive Blocked (ε : Type)
  | noSession
  | sessionExists
  | waiting
  | notReady
  | refused (e : ε)

structure Flight (σ κ : Type) where
  sessions : List (Nat × σ)
  locks : Table Nat κ

variable {i j : Nat}

namespace Flight

def empty : Flight σ κ := { sessions := [], locks := [] }

def session (f : Flight σ κ) (i : Nat) : Option σ :=
  (find Prod.fst i f.sessions).map Prod.snd

def put (f : Flight σ κ) (i : Nat) (s : σ) : Flight σ κ :=
  { f with sessions := upsert Prod.fst (i, s) f.sessions }

def finish (f : Flight σ κ) (i : Nat) : Flight σ κ :=
  { sessions := f.sessions.filter fun p => decide (p.1 ≠ i)
    locks := release f.locks i }

def Holds (f : Flight σ κ) (i : Nat) (k : κ) : Prop := ⟨i, k, .exclusive⟩ ∈ f.locks

@[simp] theorem session_empty (i : Nat) : (empty : Flight σ κ).session i = none := rfl

theorem session_put (f : Flight σ κ) (i j : Nat) (s : σ) :
    (f.put i s).session j = if j = i then some s else f.session j := by
  rw [session, put, find_upsert, apply_ite (Option.map _)]
  rfl

theorem session_finish (f : Flight σ κ) (i j : Nat) :
    (f.finish i).session j = if j = i then none else f.session j := by
  rw [session, finish, find_filter_ne, apply_ite (Option.map _)]
  rfl

theorem session_of_put {f : Flight σ κ} {s t : σ} (h : (f.put i s).session j = some t) :
    j = i ∧ t = s ∨ j ≠ i ∧ f.session j = some t := by
  rw [session_put] at h
  split_ifs at h with hj
  · exact Or.inl ⟨hj, (Option.some.inj h).symm⟩
  · exact Or.inr ⟨hj, h⟩

theorem session_of_finish {f : Flight σ κ} {t : σ} (h : (f.finish i).session j = some t) :
    j ≠ i ∧ f.session j = some t := by
  rwa [session_finish, Option.ite_none_left_eq_some] at h

theorem mem_sessions {f : Flight σ κ} {s : σ} (h : f.session i = some s) : (i, s) ∈ f.sessions := by
  obtain ⟨⟨j, t⟩, hfind, rfl⟩ := Option.map_eq_some_iff.1 h
  obtain rfl : j = i := key_of_find hfind
  exact mem_of_find hfind

theorem holds_put {f : Flight σ κ} {s : σ} {k : κ} : (f.put j s).Holds i k ↔ f.Holds i k := Iff.rfl

theorem holds_finish {f : Flight σ κ} {k : κ} (hne : j ≠ i) (h : f.Holds j k) :
    (f.finish i).Holds j k := mem_release.2 ⟨h, hne⟩

section Hold

variable [DecidableEq κ]

instance (f : Flight σ κ) (i : Nat) (k : κ) : Decidable (f.Holds i k) :=
  inferInstanceAs (Decidable (_ ∈ f.locks))

/-- Take an exclusive lock or wait. -/
def hold (f : Flight σ κ) (i : Nat) (k : κ) : Except (Blocked ε) (Flight σ κ) := do
  let locks ← okOr (acquire f.locks ⟨i, k, .exclusive⟩) .waiting
  pure { f with locks := locks }

theorem hold_eq_ok {f f' : Flight σ κ} {k : κ} (h : f.hold i k = (.ok f' : Except (Blocked ε) _)) :
    acquire f.locks ⟨i, k, .exclusive⟩ = some f'.locks ∧ f'.sessions = f.sessions := by
  simp only [hold, ok_iff] at h
  obtain ⟨locks, hlocks, rfl⟩ := h
  exact ⟨hlocks, rfl⟩

end Hold

/-- What a flight becomes when one of its transactions takes locks: nothing is lost, the
rest is as before. -/
structure Grown (f f' : Flight σ κ) : Prop where
  sessions : f'.sessions = f.sessions
  safe : Safe f.locks → Safe f'.locks
  keeps : ∀ j k, f.Holds j k → f'.Holds j k

namespace Grown

variable {f f' f'' : Flight σ κ}

theorem refl (f : Flight σ κ) : Grown f f := ⟨rfl, id, fun _ _ => id⟩

theorem trans (h : Grown f f') (h' : Grown f' f'') : Grown f f'' where
  sessions := h'.sessions.trans h.sessions
  safe := h'.safe ∘ h.safe
  keeps := fun j k => h'.keeps j k ∘ h.keeps j k

theorem session_eq (h : Grown f f') (j : Nat) : f'.session j = f.session j := by
  rw [session, session, h.sessions]

theorem session_of_put (h : Grown f f') {s t : σ} (ht : (f'.put i s).session j = some t) :
    j = i ∧ t = s ∨ j ≠ i ∧ f.session j = some t :=
  (Flight.session_of_put ht).imp_right fun ⟨hj, ht⟩ => ⟨hj, h.session_eq j ▸ ht⟩

theorem forall_put (h : Grown f f') {P : Nat → σ → Prop} {s : σ} (hs : P i s)
    (hrest : ∀ j t, f.session j = some t → P j t) (j : Nat) (t : σ)
    (ht : (f'.put i s).session j = some t) : P j t := by
  rcases h.session_of_put ht with ⟨rfl, rfl⟩ | ⟨-, ht⟩
  · exact hs
  · exact hrest j t ht

end Grown

section Hold

variable [DecidableEq κ] {f f' : Flight σ κ} {k : κ}

theorem hold_grown (h : f.hold i k = (.ok f' : Except (Blocked ε) _)) : Grown f f' where
  sessions := (hold_eq_ok h).2
  safe := fun hsafe => hsafe.acquire (hold_eq_ok h).1
  keeps := by
    intro j k' hj
    obtain ⟨-, hlocks⟩ := acquire_eq_some.1 (hold_eq_ok h).1
    rw [Holds, ← hlocks]
    exact List.mem_append_left _ hj

theorem hold_holds (h : f.hold i k = (.ok f' : Except (Blocked ε) _)) : f'.Holds i k := by
  obtain ⟨-, hlocks⟩ := acquire_eq_some.1 (hold_eq_ok h).1
  rw [Holds, ← hlocks]
  exact List.mem_append_right _ (List.mem_singleton.2 rfl)

theorem holds_of_hold (h : f.hold i k = (.ok f' : Except (Blocked ε) _)) {k' : κ}
    (hj : f'.Holds j k') : f.Holds j k' ∨ j = i ∧ k' = k := by
  obtain ⟨-, hlocks⟩ := acquire_eq_some.1 (hold_eq_ok h).1
  rw [Holds, ← hlocks, mem_concat] at hj
  refine hj.imp_right fun heq => ?_
  cases heq
  exact ⟨rfl, rfl⟩

theorem holdAll_grown {ks : List κ}
    (h : ks.foldlM (fun f k => f.hold i k) f = (.ok f' : Except (Blocked ε) _)) :
    Grown f f' := by
  induction ks generalizing f with
  | nil =>
    obtain rfl := Except.ok.inj h
    exact Grown.refl f
  | cons k ks ih =>
    rw [List.foldlM_cons, bind_eq_ok] at h
    obtain ⟨f₁, hk, hks⟩ := h
    exact (hold_grown hk).trans (ih hks)

end Hold

end Flight

end Opinions.Lib
