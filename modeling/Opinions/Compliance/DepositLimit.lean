import Opinions.Compliance.Tables
import Opinions.Lib.Run

/-! The deposit limit a user sets for themselves (`money/self_exclusion.rs`): a
lower limit holds at once, a higher one after a day, and any later request takes the
place of one that still waits. -/

namespace Opinions.Compliance

open Lib.Result Lib.Run Model Trade

structure UserDepositLimit where
  user : UserId
  limitMicro : Int
  pendingLimitMicro : Option Int
  pendingEffectiveAt : Option Instant
  updatedAt : Instant

def effectiveDepositLimit (row : UserDepositLimit) (now : Instant) : Int :=
  match row.pendingLimitMicro, row.pendingEffectiveAt with
  | some pending, some at' => if at' ≤ now then pending else row.limitMicro
  | _, _ => row.limitMicro

/-- `DEPOSIT_LIMIT_RAISE_DELAY`: 24 hours. -/
def raiseDelay : Int := 86400000000000

def depositLimitAfterWrite (current : Option UserDepositLimit) (requested : Int) (now : Instant)
    (user : UserId) : UserDepositLimit :=
  let lowered : UserDepositLimit := ⟨user, requested, none, none, now⟩
  match current.map (effectiveDepositLimit · now) with
  | some inForce =>
    if inForce < requested then ⟨user, inForce, some requested, some (now + raiseDelay), now⟩
    else lowered
  | none => lowered

structure LimitCall where
  requested : Int
  now : Instant

/-- One call, on the row of its user. -/
def setDepositLimit (user : UserId) (current : Option UserDepositLimit) (c : LimitCall) :
    Except AppError (Option UserDepositLimit) := do
  refuse (c.requested < 0) (.adminForbidden "limit must be non-negative")
  pure (some (depositLimitAfterWrite current c.requested c.now user))

/-- `deposit_limit_micro`: the limit as the deposit path selects it. -/
def depositLimitMicro (row : UserDepositLimit) (now : Instant) : Option Int :=
  if row.pendingLimitMicro.isSome ∧ ∃ at' ∈ row.pendingEffectiveAt, at' ≤ now then
    row.pendingLimitMicro
  else some row.limitMicro

/-- A request for at least `v` a day before `t`, and none below `v` after it. -/
def Backed (calls : List LimitCall) (v : Int) (t : Instant) : Prop :=
  ∃ xs c ys, calls = xs ++ c :: ys ∧ v ≤ c.requested ∧ c.now + raiseDelay ≤ t ∧
    ∀ c' ∈ ys, 0 ≤ c'.requested → v ≤ c'.requested

variable {calls : List LimitCall} {c : LimitCall} {v w base : Int} {t t' : Instant}
  {row : UserDepositLimit} {user : UserId}

theorem Backed.mono (h : Backed calls v t) (hv : w ≤ v) (ht : t ≤ t') : Backed calls w t' := by
  obtain ⟨xs, c, ys, rfl, hc, hat, hys⟩ := h
  exact ⟨xs, c, ys, rfl, hv.trans hc, hat.trans ht, fun c' hc' h0 => hv.trans (hys c' hc' h0)⟩

theorem Backed.concat (h : Backed calls v t) (hc : 0 ≤ c.requested → v ≤ c.requested) :
    Backed (calls ++ [c]) v t := by
  obtain ⟨xs, c', ys, rfl, hv, hat, hys⟩ := h
  refine ⟨xs, c', ys ++ [c], by simp, hv, hat, fun d hd => ?_⟩
  rcases List.mem_append.1 hd with hd | hd
  · exact hys d hd
  · rwa [List.mem_singleton.1 hd]

/-- A raise that waits was the last request. -/
def Waiting (calls : List LimitCall) (row : UserDepositLimit) : Prop :=
  ∀ p ∈ row.pendingLimitMicro, ∀ at' ∈ row.pendingEffectiveAt,
    row.limitMicro < p ∧ Backed calls p at'

theorem attempt_set (s : Option UserDepositLimit) (c : LimitCall) :
    attempt (setDepositLimit user) s c = if c.requested < 0 then s else
      some (depositLimitAfterWrite s c.requested c.now user) := by
  by_cases h : c.requested < 0 <;> simp [attempt, setDepositLimit, h]

theorem waiting_afterWrite (s : Option UserDepositLimit) (calls : List LimitCall) (c : LimitCall) :
    Waiting (calls ++ [c]) (depositLimitAfterWrite s c.requested c.now user) := by
  rcases s with _ | row
  · rintro p ⟨⟩
  simp only [depositLimitAfterWrite, Option.map_some]
  split_ifs with hraise
  · rintro p ⟨⟩ at' ⟨⟩
    exact ⟨hraise, calls, c, [], rfl, le_rfl, le_rfl, by simp⟩
  · rintro p ⟨⟩

theorem waiting_run (h : run (setDepositLimit user) none calls = some row) : Waiting calls row := by
  induction calls using List.reverseRecOn generalizing row with
  | nil => cases h
  | append_singleton calls c ih =>
    rw [run_append, run_cons, run_nil, attempt_set] at h
    split_ifs at h with hneg
    · exact fun p hp at' hat => (ih h p hp at' hat).imp_right fun hb => hb.concat (by omega)
    · exact Option.some.inj h ▸ waiting_afterWrite _ calls c

variable {row' : UserDepositLimit}

theorem effectiveDepositLimit_cases (row : UserDepositLimit) (t : Instant) :
    effectiveDepositLimit row t = row.limitMicro ∨
      ∃ at' ∈ row.pendingEffectiveAt, at' ≤ t ∧
        row.pendingLimitMicro = some (effectiveDepositLimit row t) := by
  obtain ⟨user, limit, _ | pending, _ | effectiveAt, updated⟩ := row <;>
    simp [effectiveDepositLimit]
  by_cases h : effectiveAt ≤ t <;> simp [h]

theorem Waiting.effective (h : Waiting calls row) (ht : t ≤ t')
    (hlimit : row.limitMicro ≤ base ∨ Backed calls row.limitMicro t) :
    effectiveDepositLimit row t' ≤ base ∨ Backed calls (effectiveDepositLimit row t') t' := by
  rcases effectiveDepositLimit_cases row t' with heq | ⟨at', hat, hle, hp⟩
  · rw [heq]
    exact hlimit.imp_right fun hb => hb.mono le_rfl ht
  · exact .inr ((h _ hp at' hat).2.mono le_rfl hle)

/-- What rises above the limit in force at one time was asked for a day before. -/
theorem rise_backed {later : List LimitCall} (hrow : run (setDepositLimit user) none calls = some row)
    (hrow' : run (setDepositLimit user) none (calls ++ later) = some row')
    (hlimit : row.limitMicro ≤ base ∨ Backed calls row.limitMicro t)
    (hclock : (t :: (later.map LimitCall.now ++ [t'])).IsChain (· ≤ ·)) :
    effectiveDepositLimit row' t' ≤ base ∨
      Backed (calls ++ later) (effectiveDepositLimit row' t') t' := by
  induction later generalizing calls row t with
  | nil =>
    rw [List.append_nil] at hrow' ⊢
    obtain rfl := Option.mem_unique hrow' hrow
    exact (waiting_run hrow).effective (List.isChain_cons_cons.1 hclock).1 hlimit
  | cons c later ih =>
    obtain ⟨ht, hclock⟩ := List.isChain_cons_cons.1 hclock
    rw [List.append_cons] at hrow' ⊢
    have hnext : run (setDepositLimit user) none (calls ++ [c]) =
        if c.requested < 0 then some row else
          some (depositLimitAfterWrite (some row) c.requested c.now user) := by
      rw [run_append, hrow, run_cons, run_nil, attempt_set]
    have hnow := (waiting_run hrow).effective ht hlimit
    split_ifs at hnext with hneg
    · refine ih hnext hrow' (hlimit.imp_right fun hb => ?_) hclock
      exact (hb.mono le_rfl ht).concat (by omega)
    · refine ih hnext hrow' ?_ hclock
      simp only [depositLimitAfterWrite, Option.map_some]
      split_ifs with hraise
      · exact hnow.imp_right fun hb => hb.concat fun _ => hraise.le
      · refine hnow.imp (le_trans (not_lt.1 hraise)) fun hb => ?_
        exact (hb.mono (not_lt.1 hraise) le_rfl).concat fun _ => le_rfl

/-- Limits rise slowly and fall at once, and the deposit path reads the one in force. -/
theorem deposit_limit_rises_slowly (user : UserId) (before later : List LimitCall) (t t' : Instant)
    (hrow : run (setDepositLimit user) none before = some row)
    (hrow' : run (setDepositLimit user) none (before ++ later) = some row')
    (hclock : (t :: (later.map LimitCall.now ++ [t'])).IsChain (· ≤ ·)) :
    (effectiveDepositLimit row t < effectiveDepositLimit row' t' →
      Backed (before ++ later) (effectiveDepositLimit row' t') t') ∧
    (∀ c : LimitCall, 0 ≤ c.requested → c.requested ≤ effectiveDepositLimit row' c.now →
      ∃ lowered, setDepositLimit user (some row') c = .ok (some lowered) ∧
        ∀ now, effectiveDepositLimit lowered now = c.requested) ∧
    ∀ now, depositLimitMicro row' now = some (effectiveDepositLimit row' now) := by
  refine ⟨fun hrise => ?_, fun c hc hle => ?_, fun now => ?_⟩
  · refine (rise_backed hrow hrow' (.inl ?_) hclock).resolve_left hrise.not_ge
    rcases effectiveDepositLimit_cases row t with heq | ⟨at', hat, -, hp⟩
    · exact heq.ge
    · exact (waiting_run hrow _ hp at' hat).1.le
  · refine ⟨⟨user, c.requested, none, none, c.now⟩, ?_, fun now => rfl⟩
    simp [setDepositLimit, depositLimitAfterWrite, not_lt.2 hc, not_lt.2 hle]
  · obtain ⟨user, limit, _ | pending, _ | effectiveAt, updated⟩ := row' <;>
      simp [effectiveDepositLimit, depositLimitMicro]
    by_cases h : effectiveAt ≤ now <;> simp [h]

theorem raise_backed_by_request : Backed [⟨5, 0⟩, ⟨9, 1⟩] 9 (1 + raiseDelay) := by
  have hrow' : run (setDepositLimit ⟨7⟩) none [⟨5, 0⟩, ⟨9, 1⟩] =
      some ⟨⟨7⟩, 5, some 9, some (1 + raiseDelay), 1⟩ := rfl
  exact (deposit_limit_rises_slowly ⟨7⟩ [⟨5, 0⟩] [⟨9, 1⟩] 0 (1 + raiseDelay) rfl hrow'
    (by decide)).1 (by decide)

end Opinions.Compliance
