import Opinions.Notify.Outbox

/-! What the outbox guarantees. A pair of a user and an event has at most one notification,
in every run. If whenever a consumer reads, no open transaction holds a number below the
end of the batch, then no event is passed over; with such a transaction open it is. -/

namespace Opinions.Notify

open Lib Lib.Locks Lib.Numbered Lib.Result Lib.Run Model Store

variable {J : Type}

/-! ### Inserts -/

/-- Inserting what is missing adds the keys of what is inserted. -/
theorem keys_insertAll {α β κ : Type} [∀ k (l : List κ), Decidable (k ∈ l)] (key : α → κ)
    (tag : β → κ) (make : β → α) (hmake : ∀ x, key (make x) = tag x) (rows : List α) (xs : List β)
    (k : κ) :
    k ∈ (xs.foldl (fun rows x => if tag x ∈ rows.map key then rows else rows ++ [make x])
      rows).map key ↔ k ∈ rows.map key ∨ k ∈ xs.map tag := by
  induction xs generalizing rows with
  | nil => simp
  | cons x xs ih =>
    rw [List.foldl_cons, ih, List.map_cons, List.mem_cons, ← or_assoc]
    refine or_congr_left ?_
    split_ifs with hpresent
    · exact (or_iff_left_of_imp fun h => h ▸ hpresent).symm
    · simp [hmake]

theorem keys_insertNotifications (rows ns : List (NewNotification J)) (key : UserId × Int) :
    key ∈ (insertNotifications rows ns).map NewNotification.key ↔
      key ∈ rows.map NewNotification.key ∨ key ∈ ns.map NewNotification.key :=
  keys_insertAll NewNotification.key NewNotification.key id (fun _ => rfl) rows ns key

theorem mem_materializeModerationJobs (now : Int) (jobs : List ModerationJob)
    (comments : List Uuid) (c : Uuid) :
    c ∈ (materializeModerationJobs now jobs comments).map ModerationJob.comment ↔
      c ∈ jobs.map ModerationJob.comment ∨ c ∈ comments := by
  have hkeys := keys_insertAll ModerationJob.comment id (⟨·, now⟩) (fun _ => rfl) jobs comments c
  rwa [List.map_id] at hkeys

variable {rows : List (NewNotification J)}

theorem nodup_insertMissing (h : (rows.map NewNotification.key).Nodup) (n : NewNotification J) :
    ((insertMissing rows n).map NewNotification.key).Nodup := by
  unfold insertMissing
  split_ifs with hpresent
  · exact h
  · rw [List.map_append, List.map_singleton, ← List.concat_eq_append]
    exact h.concat hpresent

theorem nodup_insertNotifications (h : (rows.map NewNotification.key).Nodup)
    (ns : List (NewNotification J)) :
    ((insertNotifications rows ns).map NewNotification.key).Nodup := by
  unfold insertNotifications
  induction ns generalizing rows with
  | nil => exact h
  | cons n ns ih => exact ih (nodup_insertMissing h n)

variable {rows' : List (NewNotification J)} {cursor : Int} {policy : NotifyPolicy}

theorem insertNotification_spec {n : NewNotification J} (h : insertNotification rows n = .ok rows') :
    n.key ∉ rows.map NewNotification.key ∧ rows' = rows ++ [n] := by
  simp only [insertNotification, ok_iff] at h
  obtain ⟨-, hfresh, rfl⟩ := h
  exact ⟨hfresh, rfl⟩

/-- Rows are added, no two of them with one key. -/
structure Extended (rows rows' : List (NewNotification J)) : Prop where
  subset : rows ⊆ rows'
  nodup : (rows.map NewNotification.key).Nodup → (rows'.map NewNotification.key).Nodup

variable {notices : List (NewNotification J)}

theorem settled_extended (h : notices.foldlM insertNotification rows = .ok rows') :
    Extended rows rows' := by
  refine foldlM_related (R := Extended) (fun _ => ⟨List.Subset.refl _, id⟩)
    (fun h h' => ⟨List.Subset.trans h.subset h'.subset, h'.nodup ∘ h.nodup⟩) ?_ h
  intro rows n rows' hinsert
  obtain ⟨hfresh, rfl⟩ := insertNotification_spec hinsert
  refine ⟨List.subset_append_left _ _, fun hnodup => ?_⟩
  rw [List.map_append, List.map_singleton, ← List.concat_eq_append]
  exact hnodup.concat hfresh

/-! ### What was done for an event -/

variable (decode : Decoder J)

/-- A committed pump materialized the event, and all it gave is in the table. -/
def Notified (w : World J) (e : OutboxEvent J) : Prop :=
  ∃ reader policy now result, materialize decode reader policy now e = .ok result ∧
    (e, result) ∈ w.pumped ∧
      ∀ n ∈ result.notifications, n.key ∈ w.notifications.map NewNotification.key

/-- A posted comment has its moderation job. -/
def Moderated (w : World J) (e : OutboxEvent J) : Prop :=
  e.eventType = "CommentPosted" →
    ∃ comment, decode.moderated e.payload = some comment ∧
      comment ∈ w.jobs.map ModerationJob.comment

def Handled (w : World J) : Consumer → OutboxEvent J → Prop
  | .notifier, e => Notified decode w e
  | .moderation, e => Moderated decode w e

structure Recorded (w w' : World J) : Prop where
  pumped : w.pumped ⊆ w'.pumped
  notifications : w.notifications.map NewNotification.key ⊆
    w'.notifications.map NewNotification.key
  jobs : w.jobs.map ModerationJob.comment ⊆ w'.jobs.map ModerationJob.comment

variable {decode} {c : Consumer} {e : OutboxEvent J} {w w' : World J}

theorem Handled.mono (h : Recorded w w') (hdone : Handled decode w c e) :
    Handled decode w' c e := by
  cases c with
  | notifier =>
    obtain ⟨reader, policy, now, result, hresult, hpumped, hrows⟩ := hdone
    exact ⟨reader, policy, now, result, hresult, h.pumped hpumped,
      fun n hn => h.notifications (hrows n hn)⟩
  | moderation =>
    intro hposted
    obtain ⟨comment, hcomment, hjob⟩ := hdone hposted
    exact ⟨comment, hcomment, h.jobs hjob⟩

theorem Recorded.same (hpumped : w'.pumped = w.pumped)
    (hnotifications : w'.notifications = w.notifications) (hjobs : w'.jobs = w.jobs) :
    Recorded w w' :=
  ⟨hpumped ▸ List.Subset.refl _, hnotifications ▸ List.Subset.refl _, hjobs ▸ List.Subset.refl _⟩

/-! ### Sessions -/

variable {s : Session J} {last : Int} {events : List (OutboxEvent J)}

namespace Session

def opened : Session J → List (OutboxEvent J)
  | .writing events _ => events
  | _ => []

def consumer : Session J → Option Consumer
  | .writing _ _ => none
  | .locked c _ _ _ => some c
  | .pumping _ _ _ _ _ => some .notifier
  | .ticking _ _ => some .moderation

/-- The consumer's batch once it is read, with the number of its last event. -/
def batch : Session J → Option (Consumer × Int × List (OutboxEvent J))
  | .pumping _ _ last todo done => some (.notifier, last, done.map Prod.fst ++ todo)
  | .ticking last batch => some (.moderation, last, batch)
  | _ => none

/-- The cursor a transaction read when it locked the row. -/
def lockedAt : Session J → Option (Consumer × Int)
  | .locked c _ _ cursor => some (c, cursor)
  | _ => none

def results : Session J → List (OutboxEvent J × MaterializeResult J)
  | .pumping _ _ _ _ done => done
  | _ => []

theorem consumer_of_batch (h : s.batch = some (c, last, events)) : s.consumer = some c := by
  cases s with
  | writing | locked => cases h
  | pumping | ticking =>
    cases h
    rfl

theorem consumer_of_lockedAt (h : s.lockedAt = some (c, cursor)) : s.consumer = some c := by
  cases s with
  | locked =>
    cases h
    rfl
  | writing | pumping | ticking => cases h

end Session

/-- Rows are locked by one transaction, and a consumer that holds its row knows its cursor. -/
structure Guarded (decode : Decoder J) (w : World J) : Prop where
  safe : Safe w.flight.locks
  held : ∀ i s c, w.flight.session i = some s → s.consumer = some c → w.flight.Holds i c
  cursor : ∀ i s c n, w.flight.session i = some s → s.lockedAt = some (c, n) → n = w.cursor c
  results : ∀ i s, w.flight.session i = some s → ∀ p ∈ s.results,
    ∃ reader policy now, materialize decode reader policy now p.1 = .ok p.2

theorem guarded_start : Guarded decode (World.start : World J) where
  safe := safe_nil
  held := fun _ _ _ h => (by cases h)
  cursor := fun _ _ _ _ h => (by cases h)
  results := fun _ _ h => (by cases h)

variable {i : Nat}

namespace Guarded

/-- Two transactions never hold one cursor row. -/
theorem alone (h : Guarded decode w) {j : Nat} {t : Session J} (hi : w.flight.session i = some s)
    (hj : w.flight.session j = some t) (hs : s.consumer = some c) (ht : t.consumer = some c) :
    i = j :=
  h.safe.owner_eq (h.held i s c hi hs) (h.held j t c hj ht)

theorem put (h : Guarded decode w) (hflight : w'.flight = w.flight.put i s)
    (hcursor : w'.cursor = w.cursor) (hheld : ∀ c, s.consumer = some c → w.flight.Holds i c)
    (hlocked : ∀ c n, s.lockedAt = some (c, n) → n = w.cursor c)
    (hresults : ∀ p ∈ s.results,
      ∃ reader policy now, materialize decode reader policy now p.1 = .ok p.2) :
    Guarded decode w' := by
  refine ⟨hflight ▸ h.safe, ?_, ?_, ?_⟩
  · intro j t c hj ht
    rw [hflight] at hj ⊢
    rcases Flight.session_of_put hj with ⟨rfl, rfl⟩ | ⟨-, hj⟩
    · exact hheld c ht
    · exact h.held j t c hj ht
  · intro j t c n hj ht
    rw [hflight] at hj
    rw [hcursor]
    rcases Flight.session_of_put hj with ⟨-, rfl⟩ | ⟨-, hj⟩
    · exact hlocked c n ht
    · exact h.cursor j t c n hj ht
  · rw [hflight]
    exact (Flight.Grown.refl _).forall_put hresults h.results

theorem finish (h : Guarded decode w) (hflight : w'.flight = w.flight.finish i)
    (hcursor : ∀ j t c, j ≠ i → w.flight.session j = some t → t.consumer = some c →
      w'.cursor c = w.cursor c) :
    Guarded decode w' := by
  refine ⟨hflight ▸ h.safe.release i, ?_, ?_, ?_⟩
  · intro j t c hj ht
    rw [hflight] at hj ⊢
    obtain ⟨hji, hj⟩ := Flight.session_of_finish hj
    exact Flight.holds_finish hji (h.held j t c hj ht)
  · intro j t c n hj ht
    obtain ⟨hji, hj⟩ := Flight.session_of_finish (hflight ▸ hj)
    rw [hcursor j t c hji hj (Session.consumer_of_lockedAt ht)]
    exact h.cursor j t c n hj ht
  · intro j t hj
    exact h.results j t (Flight.session_of_finish (hflight ▸ hj)).2

theorem grown (h : Guarded decode w) (hgrown : Flight.Grown w.flight w'.flight)
    (hcursor : w'.cursor = w.cursor) : Guarded decode w' where
  safe := hgrown.safe h.safe
  held := fun i s c hi hs => hgrown.keeps i c (h.held i s c (hgrown.session_eq i ▸ hi) hs)
  cursor := fun i s c n hi hs => hcursor ▸ h.cursor i s c n (hgrown.session_eq i ▸ hi) hs
  results := fun i s hi => h.results i s (hgrown.session_eq i ▸ hi)

end Guarded

/-! ### What one statement does -/

inductive Moved (decode : Decoder J) (w : World J) : Action J → World J → Prop
  | appended (i : Nat) (event : Event J) (notice : Option (NewNotification J))
      (events : List (OutboxEvent J)) (notices : List (NewNotification J))
      (found : w.flight.session i = none ∧ events = [] ∨
        w.flight.session i = some (.writing events notices)) :
      Moved decode w (.append i event notice) (w.append i events notices event notice)
  | committed (i : Nat) (events : List (OutboxEvent J)) (notices rows : List (NewNotification J))
      (found : w.flight.session i = some (.writing events notices))
      (inserted : notices.foldlM insertNotification w.notifications = .ok rows) :
      Moved decode w (.commit i)
        ({ w with events := w.events ++ events, notifications := rows }.finish i)
  | locked (i : Nat) (c : Consumer) (now : Int) (policy : NotifyPolicy)
      (flight : Flight (Session J) Consumer) (free : w.flight.session i = none)
      (hold : w.flight.hold i c = (.ok flight : Except (Blocked StoreError) _)) :
      Moved decode w (.lock i c now policy)
        ({ w with flight := flight }.put i (.locked c now policy (w.cursor c)))
  | read (i : Nat) (c : Consumer) (now : Int) (policy : NotifyPolicy) (cursor : Int)
      (last : OutboxEvent J) (found : w.flight.session i = some (.locked c now policy cursor))
      (ends : (after OutboxEvent.seq cursor batchLimit w.events).getLast? = some last) :
      Moved decode w (.read i) (w.put i (World.reading c now policy last.seq
        (after OutboxEvent.seq cursor batchLimit w.events)))
  | materialized (i : Nat) (reader : NotifyReader) (now : Int) (policy : NotifyPolicy)
      (last : Int) (event : OutboxEvent J) (todo : List (OutboxEvent J))
      (done : List (OutboxEvent J × MaterializeResult J)) (made : MaterializeResult J)
      (found : w.flight.session i = some (.pumping now policy last (event :: todo) done))
      (computed : materialize decode reader policy now event = .ok made) :
      Moved decode w (.materialize i reader)
        (w.put i (.pumping now policy last todo (done ++ [(event, made)])))
  | pumped (i : Nat) (at' now : Int) (policy : NotifyPolicy) (last : Int)
      (done : List (OutboxEvent J × MaterializeResult J))
      (found : w.flight.session i = some (.pumping now policy last [] done)) :
      Moved decode w (.advance i at') (w.pump i last done)
  | ticked (i : Nat) (now last : Int) (batch : List (OutboxEvent J)) (comments : List Uuid)
      (found : w.flight.session i = some (.ticking last batch))
      (posted : postedComments decode batch = .ok comments) :
      Moved decode w (.advance i now) (w.tick i now last comments)
  | ended (a : Action J) (i : Nat) : Moved decode w a (w.finish i)

variable {a : Action J}

theorem World.step_moved (h : w.step decode a = .ok w') : Moved decode w a w' := by
  cases a with
  | append i event notice =>
    simp only [step] at h
    split at h
    · next hfree =>
      cases h
      exact .appended i event notice [] [] (Or.inl ⟨hfree, rfl⟩)
    · next events notices hfound =>
      cases h
      exact .appended i event notice events notices (Or.inr hfound)
    · cases h
  | commit i =>
    simp only [step, ok_iff] at h
    obtain ⟨s, hfound, h⟩ := h
    split at h
    · next events notices =>
      simp only [ok_iff] at h
      obtain ⟨rows, hrows, rfl⟩ := h
      exact .committed i events notices rows hfound hrows
    · cases h
  | lock i c now policy =>
    simp only [step, ok_iff] at h
    obtain ⟨-, hfree, flight, hhold, rfl⟩ := h
    exact .locked i c now policy flight (by simpa using hfree) hhold
  | read i =>
    simp only [step, ok_iff] at h
    obtain ⟨s, hfound, h⟩ := h
    split at h
    · next c now policy cursor =>
      split at h
      · cases h
        exact .ended _ i
      · next last hlast =>
        cases h
        exact .read i c now policy cursor last hfound hlast
    · cases h
  | materialize i reader =>
    simp only [step, ok_iff] at h
    obtain ⟨s, hfound, h⟩ := h
    split at h
    · next now policy last event todo done =>
      simp only [ok_iff] at h
      obtain ⟨made, hmade, -, -, rfl⟩ := h
      exact .materialized i reader now policy last event todo done made hfound hmade
    · cases h
  | advance i now =>
    simp only [step, ok_iff] at h
    obtain ⟨s, hfound, h⟩ := h
    split at h
    · cases h
      exact .pumped i now _ _ _ _ hfound
    · simp only [ok_iff] at h
      obtain ⟨comments, hposted, rfl⟩ := h
      exact .ticked i now _ _ comments hfound hposted
    · cases h
  | crash i =>
    cases h
    exact .ended _ i

/-- The reader of a batch is a session of its consumer. -/
theorem batch_reading (c : Consumer) (now : Int) (policy : NotifyPolicy) (last : Int)
    (events : List (OutboxEvent J)) :
    (World.reading c now policy last events).batch = some (c, last, events) ∧
    (World.reading c now policy last events).opened = [] ∧
    (World.reading c now policy last events).lockedAt = none ∧
    (World.reading c now policy last events).results = [] := by
  cases c <;> exact ⟨rfl, rfl, rfl, rfl⟩

theorem step_guarded (h : Guarded decode w) (hmoved : Moved decode w a w') : Guarded decode w' := by
  cases hmoved with
  | appended i event notice events notices found =>
    exact h.put (s := .writing _ _) rfl rfl (fun _ hc => (by cases hc))
      (fun _ _ hc => (by cases hc)) fun _ hp => absurd hp List.not_mem_nil
  | committed | ended =>
    exact h.finish rfl fun _ _ _ _ _ _ => rfl
  | locked i c now policy flight free hold =>
    have hgrown : Guarded decode { w with flight := flight } := h.grown (Flight.hold_grown hold) rfl
    refine hgrown.put (s := .locked c now policy (w.cursor c)) rfl rfl ?_ ?_ ?_
    · intro c' hc
      cases hc
      exact Flight.hold_holds hold
    · intro c' n hc
      cases hc
      rfl
    · exact List.forall_mem_nil _
  | read i c now policy cursor last found ends =>
    obtain ⟨hbatch, -, hlocked, hresults⟩ := batch_reading c now policy last.seq
      (after OutboxEvent.seq cursor batchLimit w.events)
    refine h.put rfl rfl ?_ ?_ ?_
    · intro c' hc
      rw [Session.consumer_of_batch hbatch] at hc
      cases hc
      exact h.held i _ c found rfl
    · intro c' n hc
      rw [hlocked] at hc
      cases hc
    · rw [hresults]
      exact List.forall_mem_nil _
  | materialized i reader now policy last event todo done made found computed =>
    refine h.put (s := .pumping now policy last todo (done ++ [(event, made)])) rfl rfl ?_ ?_ ?_
    · intro c hc
      exact h.held i _ c found hc
    · exact fun _ _ hc => (by cases hc)
    · intro p hp
      rcases List.mem_append.1 hp with hp | hp
      · exact h.results i _ found p hp
      · rw [List.mem_singleton.1 hp]
        exact ⟨reader, policy, now, computed⟩
  | pumped i at' now policy last done found =>
    refine h.finish rfl fun j t c hj ht hc => ?_
    have hne : c ≠ .notifier := by
      rintro rfl
      exact hj (h.alone ht found hc rfl)
    exact Function.update_of_ne hne last w.cursor
  | ticked i now last batch comments found posted =>
    refine h.finish rfl fun j t c hj ht hc => ?_
    have hne : c ≠ .moderation := by
      rintro rfl
      exact hj (h.alone ht found hc rfl)
    exact Function.update_of_ne hne last w.cursor

/-! ### The outbox as a numbered log -/

open Lib.Numbered.View

def World.view (decode : Decoder J) (w : World J) : View Nat Consumer (OutboxEvent J) where
  next := w.nextSeq
  log := {e | e ∈ w.events}
  opened := fun i => {e | ∃ s, w.flight.session i = some s ∧ e ∈ s.opened}
  cursor := w.cursor
  reads := fun i c last batch => ∃ s events, w.flight.session i = some s ∧
    s.batch = some (c, last, events) ∧ batch = {e | e ∈ events}
  handled := fun c => {e | Handled decode w c e}

/-- A consumer's session goes on: it inserts no event, and its batch is the one it had. -/
theorem within_put
    (hsession : ∀ j, w'.flight.session j = if j = i then some s else w.flight.session j)
    (hopened : s.opened = [])
    (hbatch : ∀ x, s.batch = some x → ∃ t, w.flight.session i = some t ∧ t.batch = some x)
    (hrecorded : Recorded w w') : Within (w.view decode) (w'.view decode) where
  opened := by
    rintro j e ⟨t, hj, he⟩
    rw [hsession] at hj
    split_ifs at hj with hji
    · cases hj
      rw [hopened] at he
      exact absurd he List.not_mem_nil
    · exact ⟨t, hj, he⟩
  reads := by
    rintro j c last batch ⟨t, events, hj, ht, rfl⟩
    rw [hsession] at hj
    split_ifs at hj with hji
    · cases hj
      obtain ⟨t, hi, ht⟩ := hbatch _ ht
      exact ⟨t, events, hji ▸ hi, ht, rfl⟩
    · exact ⟨t, events, hj, ht, rfl⟩
  handled := fun _ _ => Handled.mono hrecorded

theorem within_finish (hflight : w'.flight = w.flight.finish i) (hrecorded : Recorded w w') :
    Within (w.view decode) (w'.view decode) where
  opened := by
    rintro j e ⟨t, hj, he⟩
    exact ⟨t, (Flight.session_of_finish (hflight ▸ hj)).2, he⟩
  reads := by
    rintro j c last batch ⟨t, events, hj, ht, rfl⟩
    exact ⟨t, events, (Flight.session_of_finish (hflight ▸ hj)).2, ht, rfl⟩
  handled := fun _ _ => Handled.mono hrecorded

variable {now : Int}

/-- What a pump gave for an event is in the table once it is inserted. -/
theorem notified_pump (h : Guarded decode w) {done : List (OutboxEvent J × MaterializeResult J)}
    (hfound : w.flight.session i = some (.pumping now policy last [] done))
    (he : e ∈ done.map Prod.fst) : Notified decode (w.pump i last done) e := by
  obtain ⟨p, hp, rfl⟩ := List.mem_map.1 he
  obtain ⟨reader, policy, now, hmade⟩ := h.results i _ hfound p hp
  refine ⟨reader, policy, now, p.2, hmade, List.mem_append_right _ hp, fun n hn => ?_⟩
  refine (keys_insertNotifications _ _ _).2 (Or.inr (List.mem_map_of_mem ?_))
  exact List.mem_flatMap.2 ⟨p, hp, hn⟩

theorem moderated_tick {batch : List (OutboxEvent J)} {comments : List Uuid}
    (hposted : postedComments decode batch = .ok comments) (he : e ∈ batch) :
    Moderated decode (w.tick i now last comments) e := by
  intro htype
  have hmem : e ∈ batch.filter fun e => decide (e.eventType = "CommentPosted") :=
    List.mem_filter.2 ⟨he, decide_eq_true htype⟩
  obtain ⟨comment, hcomment, hdecoded⟩ := (mem_of_mapM hposted).1 e hmem
  exact ⟨comment, okOr_eq_ok.1 hdecoded,
    (mem_materializeModerationJobs _ _ _ _).2 (Or.inr hcomment)⟩

theorem recorded_pump (i : Nat) (last : Int)
    (done : List (OutboxEvent J × MaterializeResult J)) : Recorded w (w.pump i last done) where
  pumped := List.subset_append_left _ _
  notifications := fun _ hkey => (keys_insertNotifications _ _ _).2 (Or.inl hkey)
  jobs := List.Subset.refl _

theorem recorded_tick (i : Nat) (now last : Int) (comments : List Uuid) :
    Recorded w (w.tick i now last comments) where
  pumped := List.Subset.refl _
  notifications := List.Subset.refl _
  jobs := fun _ hjob => (mem_materializeModerationJobs _ _ _ _).2 (Or.inl hjob)

theorem alone_finish (h : Guarded decode w) (hflight : w'.flight = w.flight.finish i)
    (hfound : w.flight.session i = some s) (hs : s.consumer = some c) (j : Nat) (last : Int)
    (batch : Set (OutboxEvent J)) :
    ¬(w'.view decode).reads j c last batch := by
  rintro ⟨t, events, hj, ht, -⟩
  obtain ⟨hji, hj⟩ := Flight.session_of_finish (hflight ▸ hj)
  exact hji (h.alone hj hfound (Session.consumer_of_batch ht) hs)

/-! ### The condition -/

/-- When a consumer reads, no open transaction holds a number below one in the batch. -/
def noEarlierOpen (w : World J) : Action J → Bool
  | .read i =>
    match w.flight.session i with
    | some (.locked _ _ _ cursor) =>
      ∀ p ∈ w.flight.sessions, ∀ e ∈ p.2.opened,
        ∀ b ∈ after OutboxEvent.seq cursor batchLimit w.events, b.seq < e.seq
    | _ => true
  | _ => true

theorem shift_appended {event : Event J} {notice : Option (NewNotification J)}
    (hfound : w.flight.session i = none ∧ events = [] ∨
      w.flight.session i = some (.writing events notices)) :
    Shift OutboxEvent.seq (w.view decode)
      ((w.append i events notices event notice).view decode) := by
  refine .drawn i (event.numbered w.nextSeq) rfl rfl rfl rfl ?_ ?_ ?_
  · rintro j e ⟨t, hj, he⟩
    rcases Flight.session_of_put hj with ⟨rfl, rfl⟩ | ⟨-, hj⟩
    · rcases List.mem_append.1 he with he | he
      · rcases hfound with ⟨-, rfl⟩ | hfound
        · exact absurd he List.not_mem_nil
        · exact Or.inl ⟨.writing events notices, hfound, he⟩
      · exact Or.inr ⟨rfl, List.mem_singleton.1 he⟩
    · exact Or.inl ⟨t, hj, he⟩
  · rintro j c last batch ⟨t, read, hj, ht, rfl⟩
    rcases Flight.session_of_put hj with ⟨rfl, rfl⟩ | ⟨-, hj⟩
    · cases ht
    · exact ⟨t, read, hj, ht, rfl⟩
  · exact fun _ _ => Handled.mono (.same rfl rfl rfl)

theorem shift_committed (hfound : w.flight.session i = some (.writing events notices))
    (hinserted : notices.foldlM insertNotification w.notifications = .ok rows) :
    Shift OutboxEvent.seq (w.view decode)
      (({ w with events := w.events ++ events, notifications := rows }.finish i).view decode) := by
  have hextended := settled_extended hinserted
  refine .committed i (within_finish rfl ⟨List.Subset.refl _, ?_, List.Subset.refl _⟩) rfl ?_ ?_ rfl
  · exact List.map_subset _ hextended.subset
  · ext e
    constructor
    · intro he
      refine (List.mem_append.1 he).imp id fun he => ⟨_, hfound, he⟩
    · rintro (he | ⟨t, ht, he⟩)
      · exact List.mem_append_left _ he
      · rw [hfound] at ht
        cases ht
        exact List.mem_append_right _ he
  · refine Set.eq_empty_iff_forall_notMem.2 ?_
    rintro e ⟨t, ht, -⟩
    simp only [World.finish, Flight.session_finish, if_true] at ht
    cases ht

theorem shift_read (h : Guarded decode w) (hdistinct : Distinct OutboxEvent.seq (w.view decode))
    {last : OutboxEvent J} (hopen : noEarlierOpen w (.read i) = true)
    (hfound : w.flight.session i = some (.locked c now policy cursor))
    (hlast : (after OutboxEvent.seq cursor batchLimit w.events).getLast? = some last) :
    Shift OutboxEvent.seq (w.view decode) ((w.put i (World.reading c now policy last.seq
      (after OutboxEvent.seq cursor batchLimit w.events))).view decode) := by
  have hmem := List.mem_of_getLast? hlast
  obtain ⟨hbatch, hopened, -, -⟩ := batch_reading c now policy last.seq
    (after OutboxEvent.seq cursor batchLimit w.events)
  simp only [noEarlierOpen, hfound, decide_eq_true_eq] at hopen
  refine .read i c last.seq {e | e ∈ after OutboxEvent.seq cursor batchLimit w.events}
    rfl rfl rfl ?_ ?_ ?_ ?_ ?_ ?_
  · rintro j e ⟨t, hj, he⟩
    rcases Flight.session_of_put hj with ⟨rfl, rfl⟩ | ⟨-, hj⟩
    · rw [hopened] at he
      exact absurd he List.not_mem_nil
    · exact ⟨t, hj, he⟩
  · rintro j c' last' batch ⟨t, events, hj, ht, rfl⟩
    rcases Flight.session_of_put hj with ⟨rfl, rfl⟩ | ⟨-, hj⟩
    · rw [hbatch] at ht
      cases ht
      exact Or.inr ⟨rfl, rfl, rfl, rfl⟩
    · exact Or.inl ⟨t, events, hj, ht, rfl⟩
  · exact fun _ _ => Handled.mono (.same rfl rfl rfl)
  · exact hdistinct.below last (mem_of_mem_after hmem).1
  · intro e he habove hle
    have hcursor : cursor = w.cursor c := h.cursor i _ c cursor hfound rfl
    exact mem_after_of_le hdistinct.log hmem he (hcursor ▸ habove) hle
  · rintro j e ⟨t, hj, he⟩
    exact hopen _ (Flight.mem_sessions hj) e he last hmem

theorem step_shift (h : Guarded decode w) (hdistinct : Distinct OutboxEvent.seq (w.view decode))
    (hopen : noEarlierOpen w a = true) (hmoved : Moved decode w a w') :
    Shift OutboxEvent.seq (w.view decode) (w'.view decode) := by
  cases hmoved with
  | appended i event notice events notices found =>
    exact shift_appended found
  | committed i events notices rows found inserted =>
    exact shift_committed found inserted
  | locked i c now policy flight free hold =>
    have hsession := (Flight.hold_grown hold).session_eq
    refine .quiet (within_put (i := i) (s := .locked c now policy (w.cursor c)) (fun j => ?_) rfl
      (fun _ hx => (by cases hx)) (.same rfl rfl rfl)) rfl rfl rfl
    rw [← hsession j]
    exact Flight.session_put flight i j _
  | read i c now policy cursor last found ends =>
    exact shift_read h hdistinct hopen found ends
  | materialized i reader now policy last event todo done made found computed =>
    refine .quiet (within_put (fun j => Flight.session_put _ i j _) rfl (fun x hx => ?_)
      (.same rfl rfl rfl)) rfl rfl rfl
    refine ⟨_, found, ?_⟩
    rw [← hx]
    simp [Session.batch]
  | pumped i at' now policy last done found =>
    have hmoves : (w.pump i last done).cursor .notifier = last :=
      Function.update_self (β := fun _ => Int) Consumer.notifier last w.cursor
    exact .advanced i .notifier last {e | e ∈ done.map Prod.fst}
      ⟨_, _, found, rfl, by simp⟩ rfl rfl (within_finish rfl (recorded_pump i last done))
      hmoves (fun c hc => Function.update_of_ne (β := fun _ => Int) hc last w.cursor)
      (alone_finish h rfl found rfl) fun e he => notified_pump h found he
  | ticked i now last batch comments found posted =>
    have hmoves : (w.tick i now last comments).cursor .moderation = last :=
      Function.update_self (β := fun _ => Int) Consumer.moderation last w.cursor
    exact .advanced i .moderation last {e | e ∈ batch} ⟨_, _, found, rfl, rfl⟩ rfl rfl
      (within_finish rfl (recorded_tick i now last comments)) hmoves
      (fun c hc => Function.update_of_ne (β := fun _ => Int) hc last w.cursor) (alone_finish h rfl found rfl)
      fun e he => moderated_tick posted he
  | ended _ i =>
    exact .quiet (within_finish rfl (.same rfl rfl rfl)) rfl rfl rfl

/-! ### Whole runs -/

theorem step_unique (h : (w.notifications.map NewNotification.key).Nodup)
    (hmoved : Moved decode w a w') : (w'.notifications.map NewNotification.key).Nodup := by
  cases hmoved with
  | appended | locked | read | materialized | ticked | ended => exact h
  | committed _ _ _ _ _ inserted => exact (settled_extended inserted).nodup h
  | pumped => exact nodup_insertNotifications h _

/-- What holds where every read met the condition. -/
structure Sound (decode : Decoder J) (w : World J) : Prop where
  guarded : Guarded decode w
  distinct : Distinct OutboxEvent.seq (w.view decode)
  lossless : Lossless OutboxEvent.seq (w.view decode)

theorem sound_start : Sound decode (World.start : World J) where
  guarded := guarded_start
  distinct :=
    { below := List.forall_mem_nil _
      openedBelow := fun _ _ ⟨_, h, _⟩ => (by cases h)
      log := List.forall_mem_nil _
      opened := fun _ _ ⟨_, h, _⟩ => (by cases h)
      apart := fun _ _ _ ⟨_, h, _⟩ => (by cases h) }
  lossless :=
    { cursor := fun _ => Int.zero_lt_one
      ahead := fun _ _ _ ⟨_, h, _⟩ => (by cases h)
      handled := fun _ _ h => absurd h List.not_mem_nil
      drawn := fun _ _ _ _ ⟨_, _, h, _⟩ => (by cases h)
      beyond := fun _ _ _ _ ⟨_, _, h, _⟩ => (by cases h)
      covers := fun _ _ _ _ ⟨_, _, h, _⟩ => (by cases h) }

theorem step_sound (h : Sound decode w) (hopen : noEarlierOpen w a = true)
    (hstep : w.step decode a = .ok w') :
    Sound decode w' ∧ Shift OutboxEvent.seq (w.view decode) (w'.view decode) := by
  have hmoved := World.step_moved hstep
  have hshift := step_shift h.guarded h.distinct hopen hmoved
  exact ⟨⟨step_guarded h.guarded hmoved, h.distinct.shift hshift, h.lossless.shift hshift⟩, hshift⟩

/-- No user has two notifications of one event, in any run. Where every read met the
condition: at any moment the cursors stand below all that commits later, and every
committed event at or below a cursor was materialized by its consumer. -/
theorem outbox_lossless (decode : Decoder J) (actions : List (Action J)) :
    ((run (World.step decode) .start actions).notifications.map NewNotification.key).Nodup ∧
    (Along (World.step decode) (fun w a => noEarlierOpen w a = true) .start actions →
      (∀ before, before <+: actions → ∀ c,
        ∀ e ∈ (run (World.step decode) .start actions).events,
          e ∉ (run (World.step decode) .start before).events →
            (run (World.step decode) .start before).cursor c < e.seq) ∧
      ∀ c, ∀ e ∈ (run (World.step decode) .start actions).events,
        e.seq ≤ (run (World.step decode) .start actions).cursor c →
          Handled decode (run (World.step decode) .start actions) c e) := by
  constructor
  · refine run_preserves (P := fun w : World J => (w.notifications.map NewNotification.key).Nodup)
      (fun _ _ _ _ h hstep => step_unique h (World.step_moved hstep)) ?_
    exact List.nodup_nil
  · intro hopen
    have hsound (taken : List (Action J))
        (htaken : Along (World.step decode) (fun w a => noEarlierOpen w a = true) .start taken) :
        Sound decode (run (World.step decode) .start taken) :=
      run_preserves_along (fun w a w' h hC hstep => (step_sound h hC hstep).1) sound_start htaken
    refine ⟨?_, (hsound actions hopen).lossless.handled⟩
    rintro before ⟨later, rfl⟩ c e he hnot
    obtain ⟨hbefore, hlater⟩ := along_append.1 hopen
    have hstart := hsound before hbefore
    rw [run_append] at he
    have hbeyond := run_preserves_along
      (P := fun w => Sound decode w ∧
        Beyond OutboxEvent.seq ((run (World.step decode) .start before).cursor c)
          {e | e ∈ (run (World.step decode) .start before).events} (w.view decode))
      (fun w a w' h hC hstep =>
        ⟨(step_sound h.1 hC hstep).1, h.2.shift (step_sound h.1 hC hstep).2⟩)
      ⟨hstart, hstart.lossless.beyond_cursor c⟩ hlater
    exact hbeyond.2.joined e he hnot

/-! ### A slow writer -/

/-- Payloads that are the identifier of a comment; the comment answers user 3. -/
def sampleDecoder : Decoder Uuid where
  resolution := fun _ => none
  commentPosted := fun comment => some ⟨1, comment, 2, some 3⟩
  mention := fun _ => none
  rep := fun _ => none
  userId := fun _ => none
  moderated := some

def sampleReader : NotifyReader where
  resolutionRecipients := fun _ _ => .ok []
  parentAuthor := fun _ => .ok none
  usersByHandles := fun _ => .ok []
  notificationCountSince := fun _ _ _ => .ok 0

def samplePolicy : NotifyPolicy := { mentionNotifsPerHour := 10, adminHandles := [] }

def samplePost (i : Nat) (comment : Uuid) : Action Uuid :=
  .append i ⟨"CommentPosted", "comment", comment, comment⟩ none

/-- A pump and a moderation tick over one event. -/
def sampleConsumers : List (Action Uuid) :=
  [.lock 3 .notifier 0 samplePolicy, .read 3, .materialize 3 sampleReader, .advance 3 0,
    .lock 4 .moderation 0 samplePolicy, .read 4, .advance 4 0]

/-- The second writer commits, then the consumers run. -/
def sampleOvertaken : List (Action Uuid) :=
  [samplePost 1 10, samplePost 2 20, .commit 2] ++ sampleConsumers

/-- A comment is committed before the consumers run. -/
def sampleInOrder : List (Action Uuid) :=
  [samplePost 1 10, .commit 1] ++ sampleConsumers

theorem sampleInOrder_lossless :
    (run (World.step sampleDecoder) .start sampleInOrder).cursor .moderation = 1 ∧
    ∀ e ∈ (run (World.step sampleDecoder) .start sampleInOrder).events,
      e.seq ≤ (run (World.step sampleDecoder) .start sampleInOrder).cursor .moderation →
        Handled sampleDecoder (run (World.step sampleDecoder) .start sampleInOrder)
          .moderation e :=
  ⟨by decide +kernel,
    ((outbox_lossless sampleDecoder sampleInOrder).2 (by decide +kernel)).2 .moderation⟩

/-- The first writer holds number 1 while the consumers move past it to 2, and commits
then: its event is below both cursors, with no notification and no job. -/
theorem slow_writer_unnotified :
    (run (World.step sampleDecoder) .start sampleOvertaken).events.map OutboxEvent.seq = [2] ∧
    (run (World.step sampleDecoder) .start sampleOvertaken).cursor .notifier = 2 ∧
    (run (World.step sampleDecoder) .start sampleOvertaken).cursor .moderation = 2 ∧
    (run (World.step sampleDecoder) .start (sampleOvertaken ++ [.commit 1])).events.map
      OutboxEvent.seq = [2, 1] ∧
    (run (World.step sampleDecoder) .start (sampleOvertaken ++ [.commit 1])).pumped.map
      (fun p => p.1.seq) = [2] ∧
    (run (World.step sampleDecoder) .start (sampleOvertaken ++ [.commit 1])).notifications.map
      NewNotification.sourceSeq = [2] ∧
    (run (World.step sampleDecoder) .start (sampleOvertaken ++ [.commit 1])).jobs.map
      ModerationJob.comment = [20] := by
  decide +kernel

end Opinions.Notify
