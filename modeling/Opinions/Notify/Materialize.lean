import Opinions.Domain.Amm
import Opinions.Store.Accounts

/-! From an outbox event to its notifications (`application/src/notify.rs`). What the
payload decodes to is up to the JSON library, and what the readers answer up to the
tables of the moment; both are arbitrary here. -/

namespace Opinions.Notify

open Domain.Amm Lib.Result Model Store

/-- A row of `events_outbox`; `J` is the type of JSON values. -/
structure OutboxEvent (J : Type) where
  seq : Int
  eventType : String
  aggregateType : String
  aggregateId : Uuid
  payload : J

structure ResolutionPayload where
  redemptionYesMicro : Int
  redemptionNoMicro : Int

structure CommentPostedPayload where
  marketId : Uuid
  commentId : Uuid
  authorId : Uuid
  parentAuthorId : Option Uuid

structure MentionPayload where
  commentId : Uuid
  marketId : Uuid
  mentionedUserId : Uuid
  authorId : Uuid

structure RepPayload where
  userId : Uuid
  marketId : Uuid
  repMicro : Int
  tier : Nat
  previousTier : Nat

/-- `serde_json::from_value` at each type a payload is read as. -/
structure Decoder (J : Type) where
  resolution : J → Option ResolutionPayload
  commentPosted : J → Option CommentPostedPayload
  mention : J → Option MentionPayload
  rep : J → Option RepPayload
  /-- The identifier in the text field `user_id`. -/
  userId : J → Option Uuid
  /-- The field `comment_id`, all that moderation reads of a posted comment. -/
  moderated : J → Option Uuid

inductive NotificationPayload (J : Type)
  | resolution (payoutTotalMicro redemptionYesMicro redemptionNoMicro realizedDeltaMicro : Int)
      (scoreBp : Option Nat) (side : Option String)
  | comment (commentId authorId : List Char)
  | reputation (repMicro : Int) (tier previousTier : Nat)
  | curator (marketId : List Char)
  | withdrawal (withdrawalId : List Char) (amountMicro : Int)
  | copied (payload : J)

structure NewNotification (J : Type) where
  user : UserId
  notificationType : String
  market : Option MarketId
  payload : NotificationPayload J
  sourceSeq : Int
  createdAt : Int

structure ResolutionRecipient where
  user : UserId
  held : Bool
  payoutTotal : Int
  realizedDelta : Int
  voted : Bool
  scoreBp : Option Nat
  side : Option Side

structure NotifyReader where
  resolutionRecipients : MarketId → Bool → Except StoreError (List ResolutionRecipient)
  parentAuthor : Uuid → Except StoreError (Option UserId)
  usersByHandles : List String → Except StoreError (List UserId)
  notificationCountSince : UserId → String → Int → Except StoreError Nat

structure NotifyPolicy where
  mentionNotifsPerHour : Nat
  adminHandles : List String

structure MaterializeResult (J : Type) where
  notifications : List (NewNotification J)
  droppedMentions : Nat

variable {J : Type}

def notification (user : UserId) (notificationType : String) (market : Option MarketId)
    (payload : NotificationPayload J) (event : OutboxEvent J) (now : Int) : NewNotification J :=
  { user := user, notificationType := notificationType, market := market, payload := payload
    sourceSeq := event.seq, createdAt := now }

def sideText : Side → String
  | .yes => "yes"
  | .no => "no"

def resolutionNotification (event : OutboxEvent J) (now : Int) (voided : Bool)
    (payload : ResolutionPayload) (recipient : ResolutionRecipient) : NewNotification J :=
  notification recipient.user
    (if voided then "resolution_void" else if recipient.held then "resolution_trade"
      else "resolution_vote")
    (some ⟨event.aggregateId⟩)
    (.resolution recipient.payoutTotal payload.redemptionYesMicro payload.redemptionNoMicro
      recipient.realizedDelta recipient.scoreBp (recipient.side.map sideText))
    event now

def oneHour : Int := 3600000000000

section

variable (decode : Decoder J) (reader : NotifyReader) (policy : NotifyPolicy) (now : Int)
  (event : OutboxEvent J)

/-- `MarketResolved` and `MarketVoided`. -/
def resolutionResult : Except StoreError (MaterializeResult J) := do
  let voided := decide (event.eventType = "MarketVoided")
  let payload ← okOr (decode.resolution event.payload)
    (.invariant "invalid resolution notification event")
  let recipients ← reader.resolutionRecipients ⟨event.aggregateId⟩ voided
  pure ⟨recipients.map (resolutionNotification event now voided payload), 0⟩

/-- `CommentPosted`: the author of the comment answered, if that is another user. -/
def commentResult : Except StoreError (MaterializeResult J) := do
  let payload ← okOr (decode.commentPosted event.payload)
    (.invariant "invalid comment notification event")
  match payload.parentAuthorId with
  | some parentAuthor =>
    if parentAuthor ≠ payload.authorId then
      pure ⟨[notification ⟨parentAuthor⟩ "comment_reply" (some ⟨payload.marketId⟩)
        (.comment payload.commentId.text payload.authorId.text) event now], 0⟩
    else pure ⟨[], 0⟩
  | none => pure ⟨[], 0⟩

/-- `MentionCreated`: at most so many an hour for one user, the others dropped. -/
def mentionResult : Except StoreError (MaterializeResult J) := do
  let payload ← okOr (decode.mention event.payload)
    (.invariant "invalid mention notification event")
  let recipient : UserId := ⟨payload.mentionedUserId⟩
  let parentAuthor ← reader.parentAuthor payload.commentId
  if recipient ≠ ⟨payload.authorId⟩ ∧ parentAuthor ≠ some recipient then
    let recent ← reader.notificationCountSince recipient "mention" (now - oneHour)
    if policy.mentionNotifsPerHour ≤ recent then pure ⟨[], 1⟩
    else pure ⟨[notification recipient "mention" (some ⟨payload.marketId⟩)
      (.comment payload.commentId.text payload.authorId.text) event now], 0⟩
  else pure ⟨[], 0⟩

/-- `RepUpdated`. -/
def repResult : Except StoreError (MaterializeResult J) := do
  let payload ← okOr (decode.rep event.payload)
    (.invariant "invalid reputation notification event")
  pure ⟨[notification ⟨payload.userId⟩ "rep_tier_change" (some ⟨payload.marketId⟩)
    (.reputation payload.repMicro payload.tier payload.previousTier) event now], 0⟩

/-- `CuratorNeeded`. -/
def curatorResult : Except StoreError (MaterializeResult J) := do
  let users ← reader.usersByHandles policy.adminHandles
  pure ⟨users.map fun user => notification user "curator_needed" (some ⟨event.aggregateId⟩)
    (.curator event.aggregateId.text) event now, 0⟩

/-- `WithdrawalSettled`. -/
def withdrawalResult : Except StoreError (MaterializeResult J) := do
  let user ← okOr (decode.userId event.payload)
    (.invariant "invalid withdrawal notification event")
  pure ⟨[notification ⟨user⟩ "withdrawal_settled" none (.copied event.payload) event now], 0⟩

def materialize : Except StoreError (MaterializeResult J) :=
  if event.eventType = "MarketResolved" ∨ event.eventType = "MarketVoided" then
    resolutionResult decode reader now event
  else if event.eventType = "CommentPosted" then commentResult decode now event
  else if event.eventType = "MentionCreated" then mentionResult decode reader policy now event
  else if event.eventType = "RepUpdated" then repResult decode now event
  else if event.eventType = "CuratorNeeded" then curatorResult reader policy now event
  else if event.eventType = "WithdrawalSettled" then withdrawalResult decode now event
  else .ok ⟨[], 0⟩

end

end Opinions.Notify
