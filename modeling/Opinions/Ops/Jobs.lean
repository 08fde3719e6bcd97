import Opinions.Lib.Flight
import Opinions.Lib.Run
import Opinions.Trade.Place

/-! Ops jobs (`application/src/ops/replay_job.rs`, and `due_job_commands` and
`save_job_command` of `adapters/src/pg/unwind_tx.rs`). A runner claims due commands with a
lease, delivers each in a transaction that appends the event and saves its copy as done,
and settles a failed delivery in a third one. Neither of the later two looks at the stored
command again. -/

namespace Opinions.Ops.Jobs

open Lib Lib.Result Lib.Rows Lib.Run Model Store

inductive OpsJobStatus
  | pending
  | executing
  | done
  | failed
  deriving DecidableEq

/-- A row of `ops_job_commands`, in creation order. -/
structure OpsJobCommand where
  id : Uuid
  kind : String
  subject : String
  idempotencyKey : String
  requestedBy : String
  status : OpsJobStatus
  attempts : Int
  leaseExpiresAt : Option Int
  error : Option String

structure JobEvent where
  eventType : String
  aggregateId : Uuid
  commandId : Uuid
  kind : String
  subject : String
  requestedAt : Int

def kindRefanout : String := "refanout"

abbrev Commands := List OpsJobCommand

/-- Pending, or executing with a lapsed lease. -/
def OpsJobCommand.due (now : Int) (c : OpsJobCommand) : Bool :=
  c.status = .pending ∨ c.status = .executing ∧ ∀ lease ∈ c.leaseExpiresAt, lease ≤ now

/-- The ids a claim takes: the first due ones that no other transaction has locked. -/
def dueIds (now : Int) (limit : Nat) (skipped : List Uuid) (commands : Commands) : List Uuid :=
  ((commands.filter fun c => c.due now ∧ c.id ∉ skipped).map OpsJobCommand.id).take limit

def OpsJobCommand.claimed (leaseUntil : Int) (c : OpsJobCommand) : OpsJobCommand :=
  { c with status := .executing, leaseExpiresAt := some leaseUntil, attempts := c.attempts + 1 }

/-- `due_job_commands`: what is claimed and the table after it. -/
def dueJobCommands (now leaseUntil : Int) (limit : Nat) (skipped : List Uuid)
    (commands : Commands) : List OpsJobCommand × Commands :=
  let taken := dueIds now limit skipped commands
  let after := commands.map fun c => if c.id ∈ taken then c.claimed leaseUntil else c
  (after.filter fun c => c.id ∈ taken, after)

def overwrite (command row : OpsJobCommand) : OpsJobCommand :=
  { row with
    status := command.status, leaseExpiresAt := command.leaseExpiresAt, error := command.error
    attempts := command.attempts }

def saveJobCommand (commands : Commands) (command : OpsJobCommand) :
    Except StoreError Commands := do
  refuse (command.id ∉ commands.map OpsJobCommand.id) (.invariant "save for unknown job command")
  pure (update OpsJobCommand.id command.id (overwrite command) commands)

def insertJobCommand (commands : Commands) (command : OpsJobCommand) :
    Except StoreError Commands := do
  refuse (command.id ∈ commands.map OpsJobCommand.id ∨
    command.idempotencyKey ∈ commands.map OpsJobCommand.idempotencyKey)
    (.conflict "ops job command")
  pure (commands ++ [command])

structure OpsJobCmd where
  subject : String
  idempotencyKey : String

/-- `authorize`: the stored command of the key, or a new pending one. -/
def authorize (id : Uuid) (requestedBy kind : String) (cmd : OpsJobCmd) (commands : Commands) :
    Except StoreError (OpsJobCommand × Commands) :=
  match find OpsJobCommand.idempotencyKey cmd.idempotencyKey commands with
  | some existing => .ok (existing, commands)
  | none => do
    let command : OpsJobCommand :=
      { id := id, kind := kind, subject := cmd.subject, idempotencyKey := cmd.idempotencyKey
        requestedBy := requestedBy, status := .pending, attempts := 0, leaseExpiresAt := none
        error := none }
    let inserted ← insertJobCommand commands command
    pure (command, inserted)

def lastPart (subject : String) : List Char :=
  (subject.toList.reverse.takeWhile (· ≠ ':')).reverse

def replayEvent (command : OpsJobCommand) (now : Int) : JobEvent :=
  { eventType := if command.kind = kindRefanout then "RefanoutRequested" else "JobReplayRequested"
    aggregateId := (Uuid.parseStr (lastPart command.subject)).getD command.id
    commandId := command.id, kind := command.kind, subject := command.subject
    requestedAt := now }

def doneCommand (command : OpsJobCommand) : OpsJobCommand :=
  { command with status := .done, error := none, leaseExpiresAt := none }

def failedCommand (command : OpsJobCommand) (error : String) : OpsJobCommand :=
  { command with status := .failed, error := some error, leaseExpiresAt := none }

/-- A pass of a runner: before its next delivery, or with a failed one to settle. -/
inductive Session
  | delivering (now : Int) (queue : List OpsJobCommand)
  | settling (now : Int) (command : OpsJobCommand) (error : String) (rest : List OpsJobCommand)

structure World where
  commands : Commands
  events : List JobEvent
  flight : Flight Session Empty

/-- How the transaction of a delivery ends: the runner may see an error although it was
committed. -/
inductive Ending
  | delivered
  | rolledBack (error : String)
  | unconfirmed (error : String)

inductive Action
  | authorize (id : Uuid) (requestedBy kind : String) (cmd : OpsJobCmd)
  | claim (i : Nat) (now : Int) (leaseSecs limit : Nat) (skipped : List Uuid)
  | deliver (i : Nat) (ending : Ending)
  | settle (i : Nat)
  | crash (i : Nat)

namespace World

def start : World := { commands := [], events := [], flight := .empty }

def put (w : World) (i : Nat) (s : Session) : World := { w with flight := w.flight.put i s }

def finish (w : World) (i : Nat) : World := { w with flight := w.flight.finish i }

def delivered (w : World) (command : OpsJobCommand) (now : Int) : Except StoreError World := do
  let commands ← saveJobCommand w.commands (doneCommand command)
  pure { w with commands := commands, events := w.events ++ [replayEvent command now] }

def deliver (w : World) (i : Nat) (now : Int) (command : OpsJobCommand)
    (rest : List OpsJobCommand) : Ending → Except StoreError World
  | .delivered => do
    let w ← w.delivered command now
    pure (w.put i (.delivering now rest))
  | .rolledBack error => .ok (w.put i (.settling now command error rest))
  | .unconfirmed error => do
    let w ← w.delivered command now
    pure (w.put i (.settling now command error rest))

def step (w : World) : Action → Except (Blocked StoreError) World
  | .authorize id requestedBy kind cmd => do
    let result ← (Jobs.authorize id requestedBy kind cmd w.commands).mapError .refused
    pure { w with commands := result.2 }
  | .claim i now leaseSecs limit skipped => do
    refuse ((w.flight.session i).isSome = true) .sessionExists
    let result := dueJobCommands now (now + leaseSecs * 1000000000) limit skipped w.commands
    pure ({ w with commands := result.2 }.put i (.delivering now result.1))
  | .deliver i ending => do
    match ← okOr (w.flight.session i) .noSession with
    | .delivering now (command :: rest) =>
      (w.deliver i now command rest ending).mapError .refused
    | _ => .error .notReady
  | .settle i => do
    match ← okOr (w.flight.session i) .noSession with
    | .settling now command error rest =>
      let commands ← (saveJobCommand w.commands (failedCommand command error)).mapError .refused
      pure ({ w with commands := commands }.put i (.delivering now rest))
    | _ => .error .notReady
  | .crash i => .ok (w.finish i)

end World

def Ending.commits : Ending → Bool
  | .rolledBack _ => false
  | _ => true

inductive Moved (w w' : World) : Action → Prop
  | quiet (a : Action) (commands : w'.commands = w.commands) (events : w'.events = w.events) :
      Moved w w' a
  | authorized (a : Action) (command : OpsJobCommand)
      (fresh : command.id ∉ w.commands.map OpsJobCommand.id) (pending : command.status = .pending)
      (commands : w'.commands = w.commands ++ [command]) (events : w'.events = w.events) :
      Moved w w' a
  | claimed (a : Action) (now leaseUntil : Int) (limit : Nat) (skipped : List Uuid)
      (commands : w'.commands = (dueJobCommands now leaseUntil limit skipped w.commands).2)
      (events : w'.events = w.events) : Moved w w' a
  | delivered (i : Nat) (ending : Ending) (now : Int) (command : OpsJobCommand)
      (rest : List OpsJobCommand)
      (found : w.flight.session i = some (.delivering now (command :: rest)))
      (commits : ending.commits = true)
      (commands : saveJobCommand w.commands (doneCommand command) = .ok w'.commands)
      (events : w'.events = w.events ++ [replayEvent command now]) : Moved w w' (.deliver i ending)
  | settled (i : Nat) (now : Int) (command : OpsJobCommand) (error : String)
      (rest : List OpsJobCommand)
      (found : w.flight.session i = some (.settling now command error rest))
      (commands : saveJobCommand w.commands (failedCommand command error) = .ok w'.commands)
      (events : w'.events = w.events) : Moved w w' (.settle i)

variable {commands : Commands} {id : Uuid} {a : Action} {c : OpsJobCommand} {limit : Nat}
  {skipped : List Uuid}

theorem authorize_cases {requestedBy kind : String} {cmd : OpsJobCmd}
    {result : OpsJobCommand × Commands}
    (h : authorize id requestedBy kind cmd commands = .ok result) :
    result.2 = commands ∨ ∃ command : OpsJobCommand,
      command.id ∉ commands.map OpsJobCommand.id ∧ command.status = .pending ∧
        result.2 = commands ++ [command] := by
  unfold authorize at h
  split at h
  · cases h
    exact Or.inl rfl
  · simp only [insertJobCommand, not_or, ok_iff] at h
    obtain ⟨_, ⟨_, hfresh, rfl⟩, rfl⟩ := h
    exact Or.inr ⟨_, hfresh.1, rfl, rfl⟩

variable {command : OpsJobCommand} {now : Int} {w w' : World}

theorem World.delivered_spec (h : w.delivered command now = .ok w') :
    saveJobCommand w.commands (doneCommand command) = .ok w'.commands ∧
      w'.events = w.events ++ [replayEvent command now] := by
  simp only [delivered, ok_iff] at h
  obtain ⟨commands, hsave, rfl⟩ := h
  exact ⟨hsave, rfl⟩

theorem World.step_moved (h : w.step a = .ok w') : Moved w w' a := by
  cases a with
  | authorize =>
    simp only [step, ok_iff] at h
    obtain ⟨result, hresult, rfl⟩ := h
    rcases authorize_cases hresult with hsame | ⟨command, hfresh, hpending, hnew⟩
    · exact .quiet _ hsame rfl
    · exact .authorized _ command hfresh hpending hnew rfl
  | claim i now leaseSecs limit skipped =>
    simp only [step, ok_iff] at h
    obtain ⟨_, -, rfl⟩ := h
    exact .claimed _ now _ limit skipped rfl rfl
  | deliver i ending =>
    simp only [step, ok_iff] at h
    obtain ⟨s, hs, h⟩ := h
    split at h
    · rename_i now command rest
      replace h := mapError_eq_ok.1 h
      cases ending with
      | delivered | unconfirmed =>
        simp only [World.deliver, ok_iff] at h
        obtain ⟨mid, hmid, rfl⟩ := h
        obtain ⟨hsave, hevents⟩ := delivered_spec hmid
        exact .delivered i _ now command rest hs rfl hsave hevents
      | rolledBack =>
        cases h
        exact .quiet _ rfl rfl
    · cases h
  | settle i =>
    simp only [step, ok_iff] at h
    obtain ⟨s, hs, h⟩ := h
    split at h
    · simp only [ok_iff] at h
      obtain ⟨commands, hsave, rfl⟩ := h
      exact .settled i _ _ _ _ hs hsave rfl
    · cases h
  | crash =>
    cases h
    exact .quiet _ rfl rfl

def eventsOf (events : List JobEvent) (id : Uuid) : Nat :=
  events.countP fun e => e.commandId = id

theorem eventsOf_append (events : List JobEvent) (command : OpsJobCommand) (now : Int) (id : Uuid) :
    eventsOf (events ++ [replayEvent command now]) id =
      eventsOf events id + if command.id = id then 1 else 0 := by
  simp [eventsOf, List.countP_append, List.countP_singleton, replayEvent]

/-- A command is done exactly when its one event was appended. -/
structure Sound (w : World) : Prop where
  ids : (w.commands.map OpsJobCommand.id).Nodup
  events : ∀ c ∈ w.commands, eventsOf w.events c.id = if c.status = .done then 1 else 0
  known : ∀ id, id ∉ w.commands.map OpsJobCommand.id → eventsOf w.events id = 0

theorem sound_start : Sound .start where
  ids := List.nodup_nil
  events := List.forall_mem_nil _
  known := fun _ _ => rfl

/-- The stored command is executing when a runner writes what became of its delivery. -/
def stillExecuting (w : World) : Action → Bool
  | .deliver i ending =>
    match w.flight.session i with
    | some (.delivering _ (command :: _)) => ending.commits = false ∨
      (find OpsJobCommand.id command.id w.commands).map OpsJobCommand.status = some .executing
    | _ => true
  | .settle i =>
    match w.flight.session i with
    | some (.settling _ command _ _) =>
      (find OpsJobCommand.id command.id w.commands).map OpsJobCommand.status = some .executing
    | _ => true
  | _ => true

/-- No command that was done is anything else. -/
def StaysDone (commands commands' : Commands) : Prop :=
  ∀ c ∈ commands, c.status = .done → ∃ c' ∈ commands', c'.id = c.id ∧ c'.status = .done

theorem StaysDone.refl (commands : Commands) : StaysDone commands commands :=
  fun c hc hdone => ⟨c, hc, rfl, hdone⟩

theorem StaysDone.trans {a b c : Commands} (h : StaysDone a b) (h' : StaysDone b c) :
    StaysDone a c := by
  intro x hx hdone
  obtain ⟨y, hy, hid, hydone⟩ := h x hx hdone
  obtain ⟨z, hz, hid', hzdone⟩ := h' y hy hydone
  exact ⟨z, hz, hid'.trans hid, hzdone⟩

theorem saveJobCommand_spec {commands' : Commands}
    (h : saveJobCommand commands command = .ok commands') :
    command.id ∈ commands.map OpsJobCommand.id ∧
      commands' = update OpsJobCommand.id command.id (overwrite command) commands := by
  simp only [saveJobCommand, not_not, ok_iff] at h
  obtain ⟨_, hknown, rfl⟩ := h
  exact ⟨hknown, rfl⟩

namespace Sound

/-- Of a stored command that is executing there is no event yet. -/
theorem status_of_mem (h : Sound w) {status : OpsJobStatus}
    (hstored : (find OpsJobCommand.id id w.commands).map OpsJobCommand.status = some status)
    (hc : c ∈ w.commands) (hid : c.id = id) : c.status = status := by
  obtain ⟨stored, hfind, rfl⟩ := Option.map_eq_some_iff.1 hstored
  have hc' := find_of_mem h.ids hc
  rw [hid, hfind] at hc'
  rw [Option.some.inj hc']

/-- A claimed command was due, so it was not done. -/
theorem not_done_of_taken (h : Sound w) (hc : c ∈ w.commands)
    (htaken : c.id ∈ dueIds now limit skipped w.commands) : c.status ≠ .done := by
  obtain ⟨c', hc', hid⟩ := List.mem_map.1 (List.mem_of_mem_take htaken)
  obtain ⟨hmem, hdue⟩ := List.mem_filter.1 hc'
  have hsame : c' = c := by
    have hfind := find_of_mem h.ids hmem
    rw [hid, find_of_mem h.ids hc] at hfind
    exact (Option.some.inj hfind).symm
  subst hsame
  intro hdone
  simp [OpsJobCommand.due, hdone] at hdue

end Sound

/-- A save of a copy over a stored command that is executing. -/
theorem Sound.saved (h : Sound w) (command : OpsJobCommand)
    (hstored : (find OpsJobCommand.id command.id w.commands).map OpsJobCommand.status =
      some .executing) (hsave : saveJobCommand w.commands command = .ok w'.commands)
    (hevents : ∀ id, eventsOf w'.events id = eventsOf w.events id +
      if command.status = .done ∧ command.id = id then 1 else 0) :
    Sound w' ∧ StaysDone w.commands w'.commands := by
  obtain ⟨hknown, hcommands⟩ := saveJobCommand_spec hsave
  have hids : w'.commands.map OpsJobCommand.id = w.commands.map OpsJobCommand.id := by
    rw [hcommands, map_key_update (f := overwrite command) fun _ => rfl]
  refine ⟨⟨hids ▸ h.ids, ?_, ?_⟩, ?_⟩
  · intro c hc
    rw [hcommands] at hc
    obtain ⟨c₀, hc₀, rfl⟩ := mem_update.1 hc
    by_cases hsame : c₀.id = command.id
    · have hnone := h.events c₀ hc₀
      rw [h.status_of_mem hstored hc₀ hsame] at hnone
      rw [if_pos hsame, hevents]
      simpa [overwrite, hsame] using hnone
    · have hne : command.id ≠ c₀.id := fun heq => hsame heq.symm
      have hother : ¬(command.status = .done ∧ command.id = c₀.id) := fun hboth => hne hboth.2
      rw [if_neg hsame, hevents, if_neg hother]
      exact h.events c₀ hc₀
  · intro id hid
    rw [hids] at hid
    have hne : command.id ≠ id := fun heq => hid (heq ▸ hknown)
    rw [hevents, h.known id hid, if_neg fun hboth => hne hboth.2]
  · intro c hc hdone
    refine ⟨c, ?_, rfl, hdone⟩
    have hne : c.id ≠ command.id := by
      intro hsame
      rw [h.status_of_mem hstored hc hsame] at hdone
      cases hdone
    rw [hcommands]
    exact mem_update.2 ⟨c, hc, if_neg hne⟩

theorem Sound.claimed (h : Sound w) {leaseUntil : Int}
    (hcommands : w'.commands = (dueJobCommands now leaseUntil limit skipped w.commands).2)
    (hevents : w'.events = w.events) : Sound w' ∧ StaysDone w.commands w'.commands := by
  have hids : w'.commands.map OpsJobCommand.id = w.commands.map OpsJobCommand.id := by
    rw [hcommands, dueJobCommands, List.map_map]
    refine List.map_congr_left fun c _ => ?_
    dsimp only [Function.comp_apply]
    split_ifs <;> rfl
  have hmem : ∀ {c}, c ∈ w'.commands ↔ ∃ c₀ ∈ w.commands,
      (if c₀.id ∈ dueIds now limit skipped w.commands then c₀.claimed leaseUntil else c₀) = c := by
    intro c
    rw [hcommands, dueJobCommands, List.mem_map]
  refine ⟨⟨hids ▸ h.ids, ?_, ?_⟩, ?_⟩
  · intro c hc
    obtain ⟨c₀, hc₀, rfl⟩ := hmem.1 hc
    rw [hevents]
    by_cases htaken : c₀.id ∈ dueIds now limit skipped w.commands
    · have hnone := h.events c₀ hc₀
      rw [if_neg (h.not_done_of_taken hc₀ htaken)] at hnone
      rwa [if_pos htaken]
    · rw [if_neg htaken]
      exact h.events c₀ hc₀
  · intro id hid
    rw [hevents]
    exact h.known id (hids ▸ hid)
  · intro c hc hdone
    exact ⟨c, hmem.2 ⟨c, hc, if_neg fun htaken => h.not_done_of_taken hc htaken hdone⟩, rfl, hdone⟩

theorem Sound.authorized (h : Sound w) (hfresh : command.id ∉ w.commands.map OpsJobCommand.id)
    (hpending : command.status = .pending) (hcommands : w'.commands = w.commands ++ [command])
    (hevents : w'.events = w.events) : Sound w' ∧ StaysDone w.commands w'.commands := by
  refine ⟨⟨?_, ?_, ?_⟩, ?_⟩
  · rw [hcommands, List.map_append, List.map_singleton, ← List.concat_eq_append]
    exact h.ids.concat hfresh
  · intro c hc
    rw [hcommands] at hc
    rw [hevents]
    rcases mem_concat.1 hc with hc | rfl
    · exact h.events c hc
    · rw [h.known c.id hfresh, hpending]
      rfl
  · intro id hid
    rw [hcommands, List.map_append, List.mem_append, not_or] at hid
    rw [hevents]
    exact h.known id hid.1
  · intro c hc hdone
    exact ⟨c, hcommands ▸ List.mem_append_left _ hc, rfl, hdone⟩

theorem step_sound (h : Sound w) (hheld : stillExecuting w a = true) (hstep : w.step a = .ok w') :
    Sound w' ∧ StaysDone w.commands w'.commands := by
  cases World.step_moved hstep with
  | quiet _ commands events =>
    refine ⟨⟨commands ▸ h.ids, ?_, ?_⟩, commands ▸ .refl _⟩
    · rw [commands, events]
      exact h.events
    · rw [commands, events]
      exact h.known
  | authorized _ command fresh pending commands events =>
    exact h.authorized fresh pending commands events
  | claimed _ now leaseUntil limit skipped commands events => exact h.claimed commands events
  | delivered i ending now command rest found commits commands events =>
    simp only [stillExecuting, found, commits, Bool.true_eq_false, false_or,
      decide_eq_true_eq] at hheld
    refine h.saved (doneCommand command) hheld commands fun id => ?_
    rw [events, eventsOf_append]
    simp [doneCommand]
  | settled i now command error rest found commands events =>
    simp only [stillExecuting, found, decide_eq_true_eq] at hheld
    refine h.saved (failedCommand command error) hheld commands fun id => ?_
    rw [events]
    simp [failedCommand]

/-- Where every delivery and every settlement is written while the stored command is
executing: a command has at most one event, a done command has exactly one, and a done
command stays done. -/
theorem jobs_exactly_once (actions : List Action)
    (hheld : Along World.step (fun w a => stillExecuting w a = true) .start actions) :
    (∀ id, eventsOf (run World.step .start actions).events id ≤ 1) ∧
    (∀ c ∈ (run World.step .start actions).commands, c.status = .done →
      eventsOf (run World.step .start actions).events c.id = 1) ∧
    ∀ before, before <+: actions →
      StaysDone (run World.step .start before).commands
        (run World.step .start actions).commands := by
  have hsound (taken : List Action)
      (htaken : Along World.step (fun w a => stillExecuting w a = true) .start taken) :
      Sound (run World.step .start taken) :=
    run_preserves_along (fun w a w' h hC hstep => (step_sound h hC hstep).1) sound_start htaken
  have hlast := hsound actions hheld
  refine ⟨fun id => ?_, fun c hc hdone => ?_, ?_⟩
  · by_cases hid : id ∈ (run World.step .start actions).commands.map OpsJobCommand.id
    · obtain ⟨c, hc, rfl⟩ := List.mem_map.1 hid
      rw [hlast.events c hc]
      split_ifs <;> omega
    · rw [hlast.known id hid]
      omega
  · rw [hlast.events c hc, if_pos hdone]
  · rintro before ⟨later, rfl⟩
    obtain ⟨hbefore, hlater⟩ := along_append.1 hheld
    rw [run_append]
    have hboth := run_preserves_along
      (P := fun w => Sound w ∧ StaysDone (run World.step .start before).commands w.commands)
      (fun w a w' h hC hstep =>
        ⟨(step_sound h.1 hC hstep).1, h.2.trans (step_sound h.1 hC hstep).2⟩)
      ⟨hsound before hbefore, .refl _⟩ hlater
    exact hboth.2

def sampleAuthorize : Action :=
  .authorize 7 "digest-ops" "replay_job" ⟨"market:1", "job-1"⟩

/-- One pass. -/
def samplePass : List Action :=
  [sampleAuthorize, .claim 1 0 60 10 [], .deliver 1 .delivered]

theorem samplePass_once :
    (run World.step .start samplePass).commands.map OpsJobCommand.status = [.done] ∧
    eventsOf (run World.step .start samplePass).events 7 ≤ 1 :=
  ⟨by decide +kernel, (jobs_exactly_once samplePass (by decide +kernel)).1 7⟩

/-- The first runner claims and stalls; its lease lapses; the second claims and delivers;
then the first delivers its copy, or reports a failure. -/
def sampleStalled : List Action :=
  [sampleAuthorize, .claim 1 0 60 10 [], .claim 2 60000000000 60 10 [], .deliver 2 .delivered]

theorem stalled_runner_delivers_again :
    eventsOf (run World.step .start (sampleStalled ++ [.deliver 1 .delivered])).events 7 = 2 ∧
    (run World.step .start sampleStalled).commands.map OpsJobCommand.status = [.done] ∧
    (run World.step .start (sampleStalled ++ [.deliver 1 (.rolledBack "store"),
      .settle 1])).commands.map OpsJobCommand.status = [.failed] := by
  decide +kernel

end Opinions.Ops.Jobs
