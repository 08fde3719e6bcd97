import Opinions.Lib.Flight
import Opinions.Lib.Numbered
import Opinions.Lib.Run
import Opinions.Notify.Materialize

/-! The outbox and its two consumers (`adapters/src/notifier.rs`, `notification_tx.rs` and
`video_tx.rs` of `adapters/src/pg`, and `materialize_stage` of
`application/src/moderation_escalate.rs`). An event has its number when it is inserted and
is visible when its transaction commits. A consumer locks its cursor row, reads a batch
above the cursor, does its work and moves the cursor, in one transaction. -/

namespace Opinions.Notify

open Lib Lib.Numbered Lib.Result Model Store

variable {J : Type}

/-- A row of `outbox_cursors`. -/
inductive Consumer
  | notifier
  | moderation
  deriving DecidableEq

structure Event (J : Type) where
  eventType : String
  aggregateType : String
  aggregateId : Uuid
  payload : J

def Event.numbered (event : Event J) (seq : Int) : OutboxEvent J :=
  { seq := seq, eventType := event.eventType, aggregateType := event.aggregateType
    aggregateId := event.aggregateId, payload := event.payload }

/-- The columns of the unique index. -/
def NewNotification.key (n : NewNotification J) : UserId × Int := (n.user, n.sourceSeq)

/-- The insert of a settlement: the unique index refuses a second row. -/
def insertNotification (rows : List (NewNotification J)) (n : NewNotification J) :
    Except StoreError (List (NewNotification J)) := do
  refuse (n.key ∈ rows.map NewNotification.key) .duplicateKey
  pure (rows ++ [n])

/-- One row of the notifier's insert: on conflict do nothing. -/
def insertMissing (rows : List (NewNotification J)) (n : NewNotification J) :
    List (NewNotification J) :=
  if n.key ∈ rows.map NewNotification.key then rows else rows ++ [n]

def insertNotifications (rows ns : List (NewNotification J)) : List (NewNotification J) :=
  ns.foldl insertMissing rows

structure ModerationJob where
  comment : Uuid
  availableAt : Int

def insertJob (now : Int) (jobs : List ModerationJob) (comment : Uuid) : List ModerationJob :=
  if comment ∈ jobs.map ModerationJob.comment then jobs else jobs ++ [⟨comment, now⟩]

def materializeModerationJobs (now : Int) (jobs : List ModerationJob) (comments : List Uuid) :
    List ModerationJob :=
  comments.foldl (insertJob now) jobs

def postedComments (decode : Decoder J) (events : List (OutboxEvent J)) :
    Except StoreError (List Uuid) :=
  (events.filter fun e => decide (e.eventType = "CommentPosted")).mapM fun e =>
    okOr (decode.moderated e.payload) (.invariant "invalid CommentPosted moderation event")

/-- A transaction in flight: one that appends events, or a consumer's. -/
inductive Session (J : Type)
  | writing (events : List (OutboxEvent J)) (notices : List (NewNotification J))
  | locked (consumer : Consumer) (now : Int) (policy : NotifyPolicy) (cursor : Int)
  | pumping (now : Int) (policy : NotifyPolicy) (last : Int) (todo : List (OutboxEvent J))
      (done : List (OutboxEvent J × MaterializeResult J))
  | ticking (last : Int) (batch : List (OutboxEvent J))

/-- The tables, and which result each committed pump had for each event. -/
structure World (J : Type) where
  nextSeq : Int
  events : List (OutboxEvent J)
  cursor : Consumer → Int
  notifications : List (NewNotification J)
  jobs : List ModerationJob
  pumped : List (OutboxEvent J × MaterializeResult J)
  flight : Flight (Session J) Consumer

/-- Statements of the transactions; `notice` is the notification a settlement inserts for
the event it just recorded. A crash ends any transaction without a trace. -/
inductive Action (J : Type)
  | append (i : Nat) (event : Event J) (notice : Option (NewNotification J))
  | commit (i : Nat)
  | lock (i : Nat) (consumer : Consumer) (now : Int) (policy : NotifyPolicy)
  | read (i : Nat)
  | materialize (i : Nat) (reader : NotifyReader)
  | advance (i : Nat) (now : Int)
  | crash (i : Nat)

/-- `MATERIALIZE_BATCH`, and the notifier's limit. -/
def batchLimit : Nat := 128

def u32Max : Nat := 4294967295

/-- The pump's running count of dropped mentions. -/
def droppedTotal (done : List (OutboxEvent J × MaterializeResult J)) : Nat :=
  (done.map fun p => p.2.droppedMentions).sum

/-- The pump's pending notifications. -/
def pendingOf (done : List (OutboxEvent J × MaterializeResult J)) : List (NewNotification J) :=
  done.flatMap fun p => p.2.notifications

namespace World

def start : World J :=
  { nextSeq := 1, events := [], cursor := fun _ => 0, notifications := [], jobs := []
    pumped := [], flight := .empty }

def put (w : World J) (i : Nat) (s : Session J) : World J :=
  { w with flight := w.flight.put i s }

def finish (w : World J) (i : Nat) : World J := { w with flight := w.flight.finish i }

/-- An insert into `events_outbox` by a transaction that inserted `events` so far. -/
def append (w : World J) (i : Nat) (events : List (OutboxEvent J))
    (notices : List (NewNotification J)) (event : Event J)
    (notice : Option (NewNotification J)) : World J :=
  { w with
    nextSeq := w.nextSeq + 1
    flight := w.flight.put i (.writing (events ++ [event.numbered w.nextSeq])
      (notices ++ (notice.map fun n => { n with sourceSeq := w.nextSeq }).toList)) }

/-- A session that read a nonempty batch ending at `last`. -/
def reading (consumer : Consumer) (now : Int) (policy : NotifyPolicy) (last : Int)
    (batch : List (OutboxEvent J)) : Session J :=
  match consumer with
  | .notifier => .pumping now policy last batch []
  | .moderation => .ticking last batch

/-- The last statements of a pump: insert, move the cursor, commit. -/
def pump (w : World J) (i : Nat) (last : Int)
    (done : List (OutboxEvent J × MaterializeResult J)) : World J :=
  { w with
    notifications := insertNotifications w.notifications (pendingOf done)
    cursor := Function.update w.cursor .notifier last
    pumped := w.pumped ++ done
    flight := w.flight.finish i }

/-- The last statements of a moderation tick. -/
def tick (w : World J) (i : Nat) (now last : Int) (comments : List Uuid) : World J :=
  { w with
    jobs := materializeModerationJobs now w.jobs comments
    cursor := Function.update w.cursor .moderation last
    flight := w.flight.finish i }

variable (decode : Decoder J)

def step (w : World J) : Action J → Except (Blocked StoreError) (World J)
  | .append i event notice =>
    match w.flight.session i with
    | none => .ok (w.append i [] [] event notice)
    | some (.writing events notices) => .ok (w.append i events notices event notice)
    | some _ => .error .notReady
  | .commit i => do
    match ← okOr (w.flight.session i) .noSession with
    | .writing events notices =>
      let rows ← (notices.foldlM insertNotification w.notifications).mapError .refused
      pure ({ w with events := w.events ++ events, notifications := rows }.finish i)
    | _ => .error .notReady
  | .lock i consumer now policy => do
    refuse ((w.flight.session i).isSome = true) .sessionExists
    let flight ← w.flight.hold i consumer
    pure ({ w with flight := flight }.put i (.locked consumer now policy (w.cursor consumer)))
  | .read i => do
    match ← okOr (w.flight.session i) .noSession with
    | .locked consumer now policy cursor =>
      let batch := after OutboxEvent.seq cursor batchLimit w.events
      match batch.getLast? with
      | none => pure (w.finish i)
      | some last => pure (w.put i (reading consumer now policy last.seq batch))
    | _ => .error .notReady
  | .materialize i reader => do
    match ← okOr (w.flight.session i) .noSession with
    | .pumping now policy last (event :: todo) done =>
      let result ← (Notify.materialize decode reader policy now event).mapError .refused
      refuse (u32Max < droppedTotal done + result.droppedMentions)
        (.refused (.invariant "dropped mention count overflow"))
      pure (w.put i (.pumping now policy last todo (done ++ [(event, result)])))
    | _ => .error .notReady
  | .advance i now => do
    match ← okOr (w.flight.session i) .noSession with
    | .pumping _ _ last [] done => pure (w.pump i last done)
    | .ticking last batch =>
      let comments ← (postedComments decode batch).mapError .refused
      pure (w.tick i now last comments)
    | _ => .error .notReady
  | .crash i => .ok (w.finish i)

end World

end Opinions.Notify
