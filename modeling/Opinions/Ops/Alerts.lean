import Opinions.Lib.Flight
import Opinions.Lib.Run
import Opinions.Trade.Place

/-! Alert incidents (`application/src/ops/alerts.rs`, `adapters/src/pg/alert_tx.rs`).
Every call of the store commits at once: no operation holds a lock from its read to its
save. Raises, the delivery pump and acknowledgements keep copies across other calls, and
a save writes every column of the copy but the key. A partial unique index allows one
unresolved row for each key. -/

namespace Opinions.Ops.Alerts

open Lib Lib.Result Lib.Rows Lib.Run Model Store

inductive IncidentStatus
  | opened
  | acked
  | resolved
  deriving DecidableEq

/-- The order in which an incident is meant to go. -/
def IncidentStatus.rank : IncidentStatus → Nat
  | .opened => 0
  | .acked => 1
  | .resolved => 2

structure IncidentKey where
  detector : String
  subject : String
  episode : String

def IncidentKey.encoded (key : IncidentKey) : String :=
  key.detector ++ ":" ++ key.subject ++ ":" ++ key.episode

/-- A row of `alert_outbox`, in creation order; the key is stored encoded. -/
structure Incident where
  id : Uuid
  key : String
  severity : String
  body : String
  status : IncidentStatus
  deliveryAttempts : Nat
  lastPagedAt : Option Int
  ackedAt : Option Int
  resolvedAt : Option Int

def Incident.unresolved (r : Incident) : Bool := r.status ≠ .resolved

abbrev Rows := List Incident

/-- `alert_outbox_one_open_per_key`. -/
def oneOpenPerKey (rows : Rows) : Prop :=
  ((rows.filter Incident.unresolved).map Incident.key).Nodup

instance (rows : Rows) : Decidable (oneOpenPerKey rows) :=
  inferInstanceAs (Decidable (List.Nodup _))

def findOpen (rows : Rows) (key : String) : Option Incident :=
  (rows.filter fun r => r.key = key ∧ r.unresolved).getLast?

/-- The insert does nothing while the key has an unresolved row. -/
def insertIfAbsent (rows : Rows) (incident : Incident) : Except StoreError (Option Rows) := do
  refuse (incident.id ∈ rows.map Incident.id) (.integrity "alert_outbox_pkey")
  if (findOpen rows incident.key).isSome then pure none else pure (some (rows ++ [incident]))

/-- A 32-bit column holds the attempts. -/
def storedAttempts (n : Nat) : Nat := min n 2147483647

def overwrite (incident row : Incident) : Incident :=
  { incident with
    id := row.id, key := row.key, deliveryAttempts := storedAttempts incident.deliveryAttempts }

def save (rows : Rows) (incident : Incident) : Except StoreError Rows := do
  refuse (incident.id ∉ rows.map Incident.id) (.notFound "alert incident")
  let saved := update Incident.id incident.id (overwrite incident) rows
  refuse (¬oneOpenPerKey saved) (.integrity "alert_outbox_one_open_per_key")
  pure saved

def pendingDelivery (rows : Rows) : List Incident :=
  rows.filter fun r => r.unresolved ∧ r.lastPagedAt = none

/-- The copy after a page: one more attempt, paged now. -/
def Incident.paged (r : Incident) (now : Int) : Incident :=
  { r with deliveryAttempts := min (r.deliveryAttempts + 1) 4294967295, lastPagedAt := some now }

/-- The copy after the page of the raise that inserted it. -/
def Incident.firstPaged (r : Incident) (now : Int) : Incident :=
  { r with deliveryAttempts := 1, lastPagedAt := some now }

def pending (id : Uuid) (key : IncidentKey) (severity body : String) : Incident :=
  { id := id, key := key.encoded, severity := severity, body := body, status := .opened
    deliveryAttempts := 0, lastPagedAt := none, ackedAt := none, resolvedAt := none }

/-- An operation between two of its statements: a raise or the pump before the page of
its copy, or anyone with a copy `read` and what is to be saved for it. -/
inductive Session
  | raised (copy : Incident) (now : Int)
  | delivering (now : Int) (queue : List Incident)
  | saving (read next : Incident) (rest : List Incident) (now : Int)

structure World where
  rows : Rows
  flight : Flight Session Empty

inductive Action
  | raise (i : Nat) (id : Uuid) (key : IncidentKey) (severity body : String) (now : Int)
  | ack (i : Nat) (key : IncidentKey) (now : Int)
  | resolve (i : Nat) (key : IncidentKey) (now : Int)
  | deliver (i : Nat) (now : Int)
  /-- The pager answers for the copy at hand. -/
  | page (i : Nat) (delivered : Bool)
  | save (i : Nat)
  | crash (i : Nat)

namespace World

def start : World := { rows := [], flight := .empty }

def put (w : World) (i : Nat) (s : Session) : World := { w with flight := w.flight.put i s }

def finish (w : World) (i : Nat) : World := { w with flight := w.flight.finish i }

/-- `ack` and `resolve`: find the unresolved row, keep what is to be saved. -/
def settling (w : World) (i : Nat) (key : IncidentKey) (now : Int)
    (next : Incident → Incident) : Except (Blocked StoreError) World := do
  refuse ((w.flight.session i).isSome = true) .sessionExists
  let read ← okOr (findOpen w.rows key.encoded) (.refused (.notFound "alert incident"))
  pure (w.put i (.saving read (next read) [] now))

/-- The operation goes on with the rest of its queue, or ends. -/
def goOn (w : World) (i : Nat) (now : Int) : List Incident → World
  | [] => w.finish i
  | queue => w.put i (.delivering now queue)

def paged (w : World) (i : Nat) (delivered : Bool) : Session → Except (Blocked StoreError) World
  | .raised copy now =>
    if delivered then .ok (w.put i (.saving copy (copy.firstPaged now) [] now))
    else .ok (w.finish i)
  | .delivering now (copy :: rest) =>
    -- a page that fails is skipped; the rest of the queue is still attempted
    if delivered then .ok (w.put i (.saving copy (copy.paged now) rest now))
    else .ok (w.goOn i now rest)
  | .delivering _ [] => .error .notReady
  | .saving _ _ _ _ => .error .notReady

def step (w : World) : Action → Except (Blocked StoreError) World
  | .raise i id key severity body now => do
    refuse ((w.flight.session i).isSome = true) .sessionExists
    match ← (insertIfAbsent w.rows (pending id key severity body)).mapError .refused with
    | none => pure w
    | some rows =>
      pure ({ w with rows := rows }.put i (.raised (pending id key severity body) now))
  | .ack i key now =>
    w.settling i key now fun r => { r with status := .acked, ackedAt := some now }
  | .resolve i key now =>
    w.settling i key now fun r => { r with status := .resolved, resolvedAt := some now }
  | .deliver i now => do
    refuse ((w.flight.session i).isSome = true) .sessionExists
    pure (w.put i (.delivering now (pendingDelivery w.rows)))
  | .page i delivered => do
    let s ← okOr (w.flight.session i) .noSession
    w.paged i delivered s
  | .save i => do
    let s ← okOr (w.flight.session i) .noSession
    match s with
    | .saving _ next rest now =>
      match Alerts.save w.rows next with
      | .ok rows => pure ({ w with rows := rows }.goOn i now rest)
      -- a save that fails is reported once the queue has been attempted
      | .error _ => pure (w.goOn i now rest)
    | _ => .error .notReady
  | .crash i => .ok (w.finish i)

end World

/-- What one step did: nothing to the rows, a row inserted, or a copy saved. -/
inductive Moved (w w' : World) : Action → Prop
  | quiet (a : Action) (rows : w'.rows = w.rows) : Moved w w' a
  | inserted (i : Nat) (id : Uuid) (key : IncidentKey) (severity body : String) (now : Int)
      (fresh : id ∉ w.rows.map Incident.id) (none : findOpen w.rows key.encoded = none)
      (rows : w'.rows = w.rows ++ [pending id key severity body]) :
      Moved w w' (.raise i id key severity body now)
  | saved (i : Nat) (read next : Incident) (rest : List Incident) (now : Int)
      (found : w.flight.session i = some (.saving read next rest now))
      (rows : save w.rows next = .ok w'.rows) : Moved w w' (.save i)

@[simp] theorem World.rows_put (w : World) (i : Nat) (s : Session) : (w.put i s).rows = w.rows := rfl

@[simp] theorem World.rows_finish (w : World) (i : Nat) : (w.finish i).rows = w.rows := rfl

@[simp] theorem World.rows_goOn (w : World) (i : Nat) (now : Int) (queue : List Incident) :
    (w.goOn i now queue).rows = w.rows := by
  cases queue <;> rfl

variable {s : Session} {w w' : World} {a : Action} {delivered : Bool} {i : Nat} {key : String}
  {r : Incident}

theorem World.rows_paged (h : w.paged i delivered s = .ok w') : w'.rows = w.rows := by
  unfold paged at h
  split at h
  · split_ifs at h <;> obtain rfl := Except.ok.inj h <;> rfl
  · split_ifs at h <;> obtain rfl := Except.ok.inj h <;> simp
  · cases h
  · cases h

theorem World.step_moved (h : w.step a = .ok w') : Moved w w' a := by
  cases a with
  | raise i id key severity body now =>
    simp only [step, insertIfAbsent, ok_iff] at h
    obtain ⟨_, -, result, ⟨_, hfresh, hresult⟩, h⟩ := h
    split_ifs at hresult with hopen
    · cases hresult
      cases h
      exact .quiet _ rfl
    · cases hresult
      cases h
      refine .inserted i id key severity body now hfresh ?_ rfl
      simpa [pending] using hopen
  | ack | resolve =>
    simp only [step, settling, ok_iff] at h
    obtain ⟨_, -, read, -, rfl⟩ := h
    exact .quiet _ rfl
  | deliver =>
    simp only [step, ok_iff] at h
    obtain ⟨_, -, rfl⟩ := h
    exact .quiet _ rfl
  | page =>
    simp only [step, bind_eq_ok] at h
    obtain ⟨s, -, h⟩ := h
    exact .quiet _ (rows_paged h)
  | save i =>
    simp only [step, ok_iff] at h
    obtain ⟨s, hs, h⟩ := h
    split at h
    · split at h
      · rename_i hsave
        cases h
        refine .saved i _ _ _ _ hs ?_
        rwa [rows_goOn]
      · cases h
        exact .quiet _ (rows_goOn ..)
    · cases h
  | crash =>
    cases h
    exact .quiet _ rfl

structure Indexed (rows : Rows) : Prop where
  ids : (rows.map Incident.id).Nodup
  oneOpen : oneOpenPerKey rows

theorem findOpen_eq_none {rows : Rows} (h : findOpen rows key = none) :
    ∀ r ∈ rows, r.unresolved = true → r.key ≠ key := by
  intro r hr hopen hkey
  have hmem : r ∈ rows.filter fun r => r.key = key ∧ r.unresolved :=
    List.mem_filter.2 ⟨hr, by simp [hkey, hopen]⟩
  rw [findOpen, List.getLast?_eq_none_iff] at h
  rw [h] at hmem
  cases hmem

theorem findOpen_spec {rows : Rows} (h : findOpen rows key = some r) : r.unresolved = true := by
  have hmem := List.mem_of_getLast? h
  have hboth := (List.mem_filter.1 hmem).2
  simp only [Bool.decide_and, Bool.decide_eq_true, Bool.and_eq_true] at hboth
  exact hboth.2

theorem save_spec {rows rows' : Rows} {incident : Incident} (h : save rows incident = .ok rows') :
    rows' = update Incident.id incident.id (overwrite incident) rows ∧ oneOpenPerKey rows' := by
  simp only [save, not_not, ok_iff] at h
  obtain ⟨_, -, _, hindex, rfl⟩ := h
  exact ⟨rfl, hindex⟩

theorem Indexed.insert {rows : Rows} (h : Indexed rows) {id : Uuid} {key : IncidentKey}
    {severity body : String} (hfresh : id ∉ rows.map Incident.id)
    (hnone : findOpen rows key.encoded = none) :
    Indexed (rows ++ [pending id key severity body]) where
  ids := by
    rw [List.map_append, List.map_singleton, ← List.concat_eq_append]
    exact h.ids.concat hfresh
  oneOpen := by
    have hopen : [pending id key severity body].filter Incident.unresolved =
        [pending id key severity body] := rfl
    rw [oneOpenPerKey, List.filter_append, hopen, List.map_append, List.map_singleton,
      ← List.concat_eq_append]
    refine List.Nodup.concat (fun hmem => ?_) h.oneOpen
    obtain ⟨r, hr, hkey⟩ := List.mem_map.1 hmem
    obtain ⟨hr, hunresolved⟩ := List.mem_filter.1 hr
    exact findOpen_eq_none hnone r hr hunresolved hkey

theorem step_indexed (h : Indexed w.rows) (hstep : w.step a = .ok w') : Indexed w'.rows := by
  cases World.step_moved hstep with
  | quiet _ rows => exact rows ▸ h
  | inserted i id key severity body now fresh none rows =>
    rw [rows]
    exact h.insert fresh none
  | saved i read next rest now found rows =>
    obtain ⟨hrows, hindex⟩ := save_spec rows
    refine ⟨?_, hindex⟩
    rw [hrows, map_key_update (f := overwrite next) fun _ => rfl]
    exact h.ids

/-- What is to be saved for a copy is the same incident, not behind the copy. -/
def Session.Ahead : Session → Prop
  | .saving read next _ _ => next.id = read.id ∧ read.status.rank ≤ next.status.rank
  | _ => True

def Ahead (w : World) : Prop := ∀ i s, w.flight.session i = some s → s.Ahead

namespace Ahead

theorem put (h : Ahead w) (hs : s.Ahead) : Ahead (w.put i s) := by
  intro j t ht
  rcases Flight.session_of_put ht with ⟨-, rfl⟩ | ⟨-, ht⟩
  · exact hs
  · exact h j t ht

theorem finish (h : Ahead w) : Ahead (w.finish i) :=
  fun j t ht => h j t (Flight.session_of_finish ht).2

theorem goOn (h : Ahead w) (now : Int) (queue : List Incident) : Ahead (w.goOn i now queue) := by
  cases queue with
  | nil => exact h.finish
  | cons => exact h.put trivial

theorem rows (h : Ahead w) (rows : Rows) : Ahead { w with rows := rows } := h

/-- An unresolved copy is behind an acknowledgement and behind a resolution. -/
theorem settling {key : IncidentKey} {now : Int} {next : Incident → Incident} (h : Ahead w)
    (hstep : w.settling i key now next = .ok w') (hid : ∀ r, (next r).id = r.id)
    (hnext : ∀ r, r.unresolved = true → r.status.rank ≤ (next r).status.rank) : Ahead w' := by
  simp only [World.settling, ok_iff] at hstep
  obtain ⟨_, -, read, hread, rfl⟩ := hstep
  exact h.put ⟨hid read, hnext read (findOpen_spec hread)⟩

theorem paged (h : Ahead w) (hstep : w.paged i delivered s = .ok w') : Ahead w' := by
  unfold World.paged at hstep
  split at hstep
  · split_ifs at hstep
    · cases hstep
      exact h.put ⟨rfl, le_rfl⟩
    · cases hstep
      exact h.finish
  · split_ifs at hstep
    · cases hstep
      exact h.put ⟨rfl, le_rfl⟩
    · cases hstep
      exact h.goOn _ _
  · cases hstep
  · cases hstep

end Ahead

theorem rank_le_acked (h : r.unresolved = true) : r.status.rank ≤ 1 := by
  cases hs : r.status with
  | opened | acked => decide
  | resolved => simp [Incident.unresolved, hs] at h

theorem rank_le_resolved (s : IncidentStatus) : s.rank ≤ 2 := by
  cases s <;> decide

theorem step_ahead (h : Ahead w) (hstep : w.step a = .ok w') : Ahead w' := by
  cases a with
  | raise =>
    simp only [World.step, bind_eq_ok] at hstep
    obtain ⟨_, -, result, -, hstep⟩ := hstep
    split at hstep
    · cases hstep
      exact h
    · cases hstep
      exact (h.rows _).put trivial
  | ack =>
    exact h.settling hstep (fun _ => rfl) fun _ => rank_le_acked
  | resolve =>
    exact h.settling hstep (fun _ => rfl) fun r _ => rank_le_resolved r.status
  | deliver =>
    simp only [World.step, ok_iff] at hstep
    obtain ⟨_, -, rfl⟩ := hstep
    exact h.put trivial
  | page =>
    simp only [World.step, bind_eq_ok] at hstep
    obtain ⟨s, -, hstep⟩ := hstep
    exact h.paged hstep
  | save =>
    simp only [World.step, bind_eq_ok] at hstep
    obtain ⟨s, -, hstep⟩ := hstep
    split at hstep
    · split at hstep
      · cases hstep
        exact (h.rows _).goOn _ _
      · cases hstep
        exact h.goOn _ _
    · cases hstep
  | crash =>
    cases hstep
    exact h.finish

/-- Every row is still there, and no status went back. -/
def Forward (rows rows' : Rows) : Prop :=
  ∀ r ∈ rows, ∃ r' ∈ rows', r'.id = r.id ∧ r.status.rank ≤ r'.status.rank

theorem Forward.refl (rows : Rows) : Forward rows rows := fun r hr => ⟨r, hr, rfl, le_rfl⟩

theorem Forward.trans {a b c : Rows} (h : Forward a b) (h' : Forward b c) : Forward a c := by
  intro r hr
  obtain ⟨r', hr', hid, hrank⟩ := h r hr
  obtain ⟨r'', hr'', hid', hrank'⟩ := h' r' hr'
  exact ⟨r'', hr'', hid'.trans hid, hrank.trans hrank'⟩

/-- When a copy is saved, the stored status is still the one that was read. -/
def current (w : World) : Action → Bool
  | .save i =>
    match w.flight.session i with
    | some (.saving read _ _ _) =>
      (find Incident.id read.id w.rows).map Incident.status = some read.status
    | _ => true
  | _ => true

structure Sound (w : World) : Prop where
  indexed : Indexed w.rows
  ahead : Ahead w

theorem sound_start : Sound .start where
  indexed := ⟨List.nodup_nil, List.nodup_nil⟩
  ahead := fun i s hs => by
    rw [World.start, Flight.session_empty] at hs
    cases hs

theorem step_sound (h : Sound w) (hstep : w.step a = .ok w') : Sound w' :=
  ⟨step_indexed h.indexed hstep, step_ahead h.ahead hstep⟩

theorem step_forward (h : Sound w) (hcurrent : current w a = true) (hstep : w.step a = .ok w') :
    Forward w.rows w'.rows := by
  cases World.step_moved hstep with
  | quiet _ rows =>
    rw [rows]
    exact .refl _
  | inserted i id key severity body now fresh none rows =>
    rw [rows]
    exact fun r hr => ⟨r, List.mem_append_left _ hr, rfl, le_rfl⟩
  | saved i read next rest now found rows =>
    obtain ⟨hid, hrank⟩ := h.ahead i _ found
    simp only [current, found, decide_eq_true_eq] at hcurrent
    obtain ⟨stored, hstored, hstatus⟩ := Option.map_eq_some_iff.1 hcurrent
    obtain ⟨hrows, -⟩ := save_spec rows
    rw [hrows]
    intro r hr
    refine ⟨_, mem_update.2 ⟨r, hr, rfl⟩, ?_, ?_⟩
    · split_ifs <;> rfl
    · split_ifs with hsame
      · -- the row that is written is the one that was read
        have hr' := find_of_mem h.indexed.ids hr
        rw [hsame, hid, hstored] at hr'
        rwa [← Option.some.inj hr', hstatus]
      · exact le_rfl

/-- In every interleaving one unresolved row exists for each key; and where no incident's
status moved between the read of a copy and its save, no stored status ever goes back. -/
theorem incidents_move_forward (actions : List Action) :
    oneOpenPerKey (run World.step .start actions).rows ∧
    (Along World.step (fun w a => current w a = true) .start actions →
      ∀ before, before <+: actions →
        Forward (run World.step .start before).rows (run World.step .start actions).rows) := by
  have hsound (taken : List Action) : Sound (run World.step .start taken) :=
    run_preserves (fun _ _ _ _ h hstep => step_sound h hstep) sound_start
  refine ⟨(hsound actions).indexed.oneOpen, ?_⟩
  rintro hcurrent before ⟨later, rfl⟩
  rw [run_append]
  have hboth := run_preserves_along
    (P := fun w => Sound w ∧ Forward (run World.step .start before).rows w.rows)
    (fun w a w' h hC hstep => ⟨step_sound h.1 hstep, h.2.trans (step_forward h.1 hC hstep)⟩)
    ⟨hsound before, .refl _⟩ (along_append.1 hcurrent).2
  exact hboth.2

def sampleKey : IncidentKey := ⟨"invariant_breach", "ledger", "active"⟩

def sampleRaise : Action := .raise 1 9 sampleKey "crit" "ledger failed" 10

/-- Raised and paged, then acknowledged, then resolved. -/
def sampleAlone : List Action :=
  [.page 1 true, .save 1, .ack 2 sampleKey 20, .save 2, .resolve 2 sampleKey 30, .save 2]

theorem sampleAlone_forward :
    (run World.step .start (sampleRaise :: sampleAlone)).rows.map Incident.status =
      [.resolved] ∧
    Forward (run World.step .start [sampleRaise]).rows
      (run World.step .start (sampleRaise :: sampleAlone)).rows :=
  ⟨by decide +kernel, (incidents_move_forward (sampleRaise :: sampleAlone)).2 (by decide +kernel)
    [sampleRaise] ⟨sampleAlone, rfl⟩⟩

/-- The first page fails; the pump reads its queue; the incident is resolved. -/
def sampleResolved : List Action :=
  [sampleRaise, .page 1 false, .deliver 3 20, .resolve 2 sampleKey 30, .save 2]

/-- The pump's page arrives and its copy is saved: the resolved incident is open again. -/
theorem delivery_reopens :
    (run World.step .start sampleResolved).rows.map Incident.status = [.resolved] ∧
    (run World.step .start (sampleResolved ++ [.page 3 true, .save 3])).rows.map
      Incident.status = [.opened] ∧
    ¬Forward (run World.step .start sampleResolved).rows
      (run World.step .start (sampleResolved ++ [.page 3 true, .save 3])).rows := by
  refine ⟨by decide +kernel, by decide +kernel, ?_⟩
  unfold Forward
  decide +kernel

end Opinions.Ops.Alerts
