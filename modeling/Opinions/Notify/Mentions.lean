import Opinions.Notify.Outbox

/-! How many mention notifications a user gets in an hour. A pump decides every event of its
batch against the rows stored before it and only then inserts, so a batch may pass the
limit. Pumps stay within it when each batch fits in what the limit leaves its users. The
lock on the cursor row puts the pumps in one order. -/

namespace Opinions.Notify

open Lib.Result Lib.Run Model Store

variable {J : Type}

/-- Mention notifications of the user created between two times. -/
def mentionsWithin (rows : List (NewNotification J)) (user : UserId) (first last : Int) : Nat :=
  rows.countP fun n => decide (n.user = user ∧ n.notificationType = "mention" ∧
    first ≤ n.createdAt ∧ n.createdAt ≤ last)

def countSince (rows : List (NewNotification J)) (user : UserId) (notificationType : String)
    (since : Int) : Nat :=
  rows.countP fun n => decide (n.user = user ∧ n.notificationType = notificationType ∧
    since ≤ n.createdAt)

/-- The readers of a pump: the counts are of the stored rows, the other tables are as found. -/
def NotifyReader.over (reader : NotifyReader) (rows : List (NewNotification J)) : NotifyReader :=
  { reader with
    notificationCountSince := fun user notificationType since => do
      let count := countSince rows user notificationType since
      refuse (u32Max < count) (.invariant "notification count overflow")
      pure count }

/-- The batch a pump fetched, its reading of the clock and what it finds in the other tables. -/
structure Pump (J : Type) where
  now : Int
  reader : NotifyReader
  events : List (OutboxEvent J)

variable (decode : Decoder J) (policy : NotifyPolicy)

/-- One turn of the pump's loop. -/
def evaluate (rows : List (NewNotification J)) (p : Pump J) (event : OutboxEvent J) :
    Except StoreError (OutboxEvent J × MaterializeResult J) := do
  let result ← materialize decode (p.reader.over rows) policy p.now event
  pure (event, result)

/-- `pump_once_inner`, on the table of notifications. -/
def pumpOnce (rows : List (NewNotification J)) (p : Pump J) :
    Except StoreError (List (NewNotification J)) := do
  let done ← p.events.mapM (evaluate decode policy rows p)
  refuse (u32Max < droppedTotal done) (.invariant "dropped mention count overflow")
  pure (insertNotifications rows (pendingOf done))

def Mentions (user : UserId) (event : OutboxEvent J) : Prop :=
  event.eventType = "MentionCreated" ∧
    (decode.mention event.payload).map MentionPayload.mentionedUserId = some user.uuid

instance decidableMentions (user : UserId) (event : OutboxEvent J) :
    Decidable (Mentions decode user event) :=
  inferInstanceAs (Decidable (_ ∧ _))

/-- The batch fits in what the limit leaves each user, or the user is at the limit already. -/
def Spaced (rows : List (NewNotification J)) (p : Pump J) : Prop :=
  ∀ user, policy.mentionNotifsPerHour ≤ countSince rows user "mention" (p.now - oneHour) ∨
    countSince rows user "mention" (p.now - oneHour) +
      p.events.countP (fun e => decide (Mentions decode user e)) ≤ policy.mentionNotifsPerHour

/-- No user has more than `limit` mentions created within an hour. -/
def Limited (limit : Nat) (rows : List (NewNotification J)) : Prop :=
  ∀ user first, mentionsWithin rows user first (first + oneHour) ≤ limit

variable {decode policy} {p : Pump J} {rows : List (NewNotification J)}
  {events : List (OutboxEvent J)}

/-- A pump with at most one mention of each user always fits. -/
theorem spaced_of_one (h : ∀ user, p.events.countP (fun e => decide (Mentions decode user e)) ≤ 1) :
    Spaced decode policy rows p := by
  intro user
  have hone := h user
  omega

variable {reader : NotifyReader} {now : Int} {event : OutboxEvent J} {result : MaterializeResult J}

/-- A mention notification is the only one of its event, and its user was below the limit. -/
theorem materialize_mention
    (h : materialize decode (reader.over rows) policy now event = .ok result) :
    (∀ n ∈ result.notifications, n.notificationType ≠ "mention") ∨
      ∃ n, result.notifications = [n] ∧ n.createdAt = now ∧ Mentions decode n.user event ∧
        countSince rows n.user "mention" (now - oneHour) < policy.mentionNotifsPerHour := by
  unfold materialize at h
  split_ifs at h with _ _ hmention
  · left
    simp only [resolutionResult, ok_iff] at h
    obtain ⟨payload, -, recipients, -, rfl⟩ := h
    simp only [List.mem_map, forall_exists_index, and_imp, forall_apply_eq_imp_iff₂]
    intro recipient _
    simp only [resolutionNotification, notification]
    split_ifs <;> decide
  · left
    simp only [commentResult, ok_iff] at h
    obtain ⟨payload, -, h⟩ := h
    split at h
    · split_ifs at h <;> obtain rfl := Except.ok.inj h
      · simp [notification]
      · simp
    · cases h
      simp
  · simp only [mentionResult, ok_iff] at h
    obtain ⟨payload, hpayload, author, -, h⟩ := h
    split_ifs at h
    · simp only [NotifyReader.over, ok_iff] at h
      obtain ⟨recent, ⟨-, -, rfl⟩, h⟩ := h
      split_ifs at h with hfull <;> obtain rfl := Except.ok.inj h
      · left
        simp
      · right
        refine ⟨_, rfl, rfl, ⟨hmention, ?_⟩, not_le.1 hfull⟩
        rw [hpayload]
        rfl
    · cases h
      left
      simp
  · left
    simp only [repResult, ok_iff] at h
    obtain ⟨payload, -, rfl⟩ := h
    simp [notification]
  · left
    simp only [curatorResult, ok_iff] at h
    obtain ⟨users, -, rfl⟩ := h
    simp [notification]
  · left
    simp only [withdrawalResult, ok_iff] at h
    obtain ⟨user, -, rfl⟩ := h
    simp [notification]
  · cases h
    left
    simp

variable {done : List (OutboxEvent J × MaterializeResult J)} (user : UserId) (first last : Int)

theorem mentionsWithin_le_one
    (h : materialize decode (reader.over rows) policy now event = .ok result) :
    mentionsWithin result.notifications user first last ≤
      if Mentions decode user event then 1 else 0 := by
  rcases materialize_mention h with hother | ⟨n, hn, -, hmentions, -⟩
  · rw [mentionsWithin, List.countP_eq_zero.2 fun n hn => ?_]
    · exact Nat.zero_le _
    · simp [hother n hn]
  · rw [hn, mentionsWithin, List.countP_singleton]
    split_ifs with hwithin hmentioned
    · exact le_rfl
    · obtain ⟨rfl, -⟩ := of_decide_eq_true hwithin
      exact absurd hmentions hmentioned
    · exact Nat.zero_le _
    · exact le_rfl

/-- The batch's rows are no more than its mentions of the user. -/
theorem mentionsWithin_pendingOf (h : events.mapM (evaluate decode policy rows p) = .ok done) :
    mentionsWithin (pendingOf done) user first last ≤
      events.countP (fun e => decide (Mentions decode user e)) := by
  rw [mapM_eq_ok] at h
  induction h with
  | nil => exact le_rfl
  | cons hd _ ih =>
    simp only [evaluate, ok_iff] at hd
    obtain ⟨result, hresult, rfl⟩ := hd
    have hone := mentionsWithin_le_one user first last hresult
    rw [pendingOf, List.flatMap_cons, mentionsWithin, List.countP_append, List.countP_cons,
      Nat.add_comm]
    simp only [decide_eq_true_eq]
    exact Nat.add_le_add ih hone

/-- Only a user below the limit is given a row, and it is created at the time of the pump. -/
theorem of_mentionsWithin_pendingOf (h : events.mapM (evaluate decode policy rows p) = .ok done)
    (hpos : 0 < mentionsWithin (pendingOf done) user first last) :
    p.now ≤ last ∧
      countSince rows user "mention" (p.now - oneHour) < policy.mentionNotifsPerHour := by
  obtain ⟨n, hn, hwithin⟩ := List.countP_pos_iff.1 hpos
  obtain ⟨rfl, htype, -, hlast⟩ := of_decide_eq_true hwithin
  obtain ⟨d, hd, hnd⟩ := List.mem_flatMap.1 hn
  obtain ⟨e, -, he⟩ := (mem_of_mapM h).2 d hd
  simp only [evaluate, ok_iff] at he
  obtain ⟨result, hresult, rfl⟩ := he
  rcases materialize_mention hresult with hother | ⟨m, hm, hnow, -, hbelow⟩
  · exact absurd htype (hother n hnd)
  · obtain rfl : n = m := List.mem_singleton.1 (hm ▸ hnd)
    exact ⟨hnow ▸ hlast, hbelow⟩

theorem mentionsWithin_insertNotifications (rows ns : List (NewNotification J)) :
    mentionsWithin (insertNotifications rows ns) user first last ≤
      mentionsWithin rows user first last + mentionsWithin ns user first last := by
  unfold insertNotifications
  induction ns generalizing rows with
  | nil => exact le_rfl
  | cons n ns ih =>
    refine (ih (insertMissing rows n)).trans ?_
    unfold insertMissing mentionsWithin
    split_ifs
    · rw [List.countP_cons]
      omega
    · simp only [List.countP_append, List.countP_cons, List.countP_nil]
      omega

theorem mentionsWithin_le_countSince {since : Int} (h : since ≤ first) :
    mentionsWithin rows user first last ≤ countSince rows user "mention" since := by
  refine List.countP_mono_left fun n _ hn => ?_
  rw [decide_eq_true_eq] at hn ⊢
  exact ⟨hn.1, hn.2.1, h.trans hn.2.2.1⟩

theorem pumpOnce_limited {rows' : List (NewNotification J)}
    (hrows : Limited policy.mentionNotifsPerHour rows) (hspaced : Spaced decode policy rows p)
    (h : pumpOnce decode policy rows p = .ok rows') :
    Limited policy.mentionNotifsPerHour rows' := by
  simp only [pumpOnce, ok_iff] at h
  obtain ⟨done, hdone, -, -, rfl⟩ := h
  intro user first
  have hadded := mentionsWithin_insertNotifications user first (first + oneHour) rows
    (pendingOf done)
  have hbatch := mentionsWithin_pendingOf user first (first + oneHour) hdone
  have hbefore := hrows user first
  rcases Nat.eq_zero_or_pos (mentionsWithin (pendingOf done) user first (first + oneHour))
    with hnone | hpos
  · omega
  · -- The span holds the time of the pump, so its stored rows are among those counted.
    obtain ⟨hlast, hbelow⟩ := of_mentionsWithin_pendingOf user first _ hdone hpos
    have hstored : mentionsWithin rows user first (first + oneHour) ≤
        countSince rows user "mention" (p.now - oneHour) :=
      mentionsWithin_le_countSince user first _ (by omega)
    have hfits := hspaced user
    omega

/-- If every batch fits in what the limit leaves its users, no user is ever given more
mention notifications within an hour than the limit. -/
theorem mentions_limited (decode : Decoder J) (policy : NotifyPolicy)
    {rows : List (NewNotification J)} (hrows : Limited policy.mentionNotifsPerHour rows)
    {pumps : List (Pump J)}
    (hspaced : Along (pumpOnce decode policy) (Spaced decode policy) rows pumps) :
    Limited policy.mentionNotifsPerHour (run (pumpOnce decode policy) rows pumps) :=
  run_preserves_along (fun _ _ _ hrows hspaced h => pumpOnce_limited hrows hspaced h) hrows hspaced

/-- The payload is the mention itself. -/
def mentionDecoder : Decoder MentionPayload where
  resolution := fun _ => none
  commentPosted := fun _ => none
  mention := some
  rep := fun _ => none
  userId := fun _ => none
  moderated := fun _ => none

def quietReader : NotifyReader where
  resolutionRecipients := fun _ _ => .ok []
  parentAuthor := fun _ => .ok none
  usersByHandles := fun _ => .ok []
  notificationCountSince := fun _ _ _ => .ok 0

def onceAnHour : NotifyPolicy := { mentionNotifsPerHour := 1, adminHandles := [] }

/-- User 3 mentions user 7. -/
def mentionOf (seq : Int) (comment : Uuid) : OutboxEvent MentionPayload :=
  { seq := seq, eventType := "MentionCreated", aggregateType := "comment", aggregateId := comment
    payload := ⟨comment, 1, 7, 3⟩ }

def pumpOf (now : Int) (events : List (OutboxEvent MentionPayload)) : Pump MentionPayload :=
  { now := now, reader := quietReader, events := events }

/-- In pumps of their own, the second mention is dropped. -/
theorem mentions_limited_apart :
    Limited 1 (run (pumpOnce mentionDecoder onceAnHour) []
      [pumpOf 0 [mentionOf 1 10], pumpOf 60 [mentionOf 2 11]]) := by
  refine mentions_limited mentionDecoder onceAnHour (fun _ _ => Nat.zero_le _) ⟨?_, ?_, trivial⟩
  all_goals exact spaced_of_one fun _ => List.countP_le_length

/-- In one pump both are given, at the same time. -/
theorem mentions_together_pass_limit :
    (run (pumpOnce mentionDecoder onceAnHour) []
      [pumpOf 0 [mentionOf 1 10, mentionOf 2 11]]).map (fun n => (n.user, n.createdAt)) =
        [(⟨7⟩, 0), (⟨7⟩, 0)] ∧
    ¬Limited 1 (run (pumpOnce mentionDecoder onceAnHour) []
      [pumpOf 0 [mentionOf 1 10, mentionOf 2 11]]) :=
  ⟨by decide +kernel, fun h => absurd (h ⟨7⟩ 0) (by decide +kernel)⟩

end Opinions.Notify
