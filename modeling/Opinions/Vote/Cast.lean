import Opinions.Trade.Place

/-! Casting a vote (`application/src/cast_vote.rs`): the replay guard, the checks
under the market row, the fence point at which the voting pause is read, and the
row with the market's next sequence number. Votes go on through the hidden window,
in which a pause is void. -/

namespace Opinions.Vote

open Lib.Checked Lib.Result Lib.Rows Domain.Amm Domain.Market Config Model Store Trade

structure CastVoteCmd where
  market : MarketId
  user : UserId
  side : Side
  crowdGuessPct : Nat
  idempotencyKey : String

structure VoteFingerprint where
  market : MarketId
  user : UserId
  side : Side
  crowdGuessPct : Nat
  deriving DecidableEq

def voteFingerprint (cmd : CastVoteCmd) : VoteFingerprint :=
  { market := cmd.market, user := cmd.user, side := cmd.side, crowdGuessPct := cmd.crowdGuessPct }

structure VoteRow where
  idempotencyKey : String
  market : MarketId
  user : UserId
  side : Side
  crowdGuessPct : Nat
  seq : Int
  createdAt : Instant

structure VoteReceipt where
  market : MarketId
  user : UserId
  side : Side
  crowdGuessPct : Nat
  seq : Option Int
  replayed : Bool

/-- The votes, the sequence counter of each market, and the request fingerprints. -/
structure VoteDb where
  votes : List VoteRow
  counters : List (MarketId × Int)
  fingerprints : List (String × VoteFingerprint)

structure VoteIntegrityConfig where
  maxVotesPerWindow : Nat
  windowSecs : Nat
  nearCloseSecs : Nat
  minAccountAgeSecs : Nat

/-- What one vote reads outside the store; the clock is read once for the replay
guard and once under the market row. -/
structure VoteFacts where
  guardNow : Instant
  now : Instant
  lots : List LotFact
  receivables : List Int
  gate : Except AppError Unit
  hasChannel : Bool
  userCreatedAt : Except AppError Instant
  votingPaused : Option Value

namespace VoteDb

def userVoted (v : VoteDb) (user : UserId) (m : MarketId) : Bool :=
  v.votes.any fun r => r.user = user ∧ r.market = m

def votesCountSince (v : VoteDb) (user : UserId) (since : Instant) : Nat :=
  v.votes.countP fun r => r.user = user ∧ since ≤ r.createdAt

def nextSeq (v : VoteDb) (m : MarketId) : Int := (find Prod.fst m v.counters).elim 1 (·.2 + 1)

end VoteDb

/-- A sequence number is shown before the hidden window and after the outcome. -/
def shownSeq (state : MarketState) (now tallyHiddenAt : Instant) (seq : Int) : Option Int :=
  if now < tallyHiddenAt ∨ state = .resolved ∨ state = .paid ∨ state = .voided then some seq
  else none

/-- A key that is booked already: the fingerprint must match. -/
def replayVote (facts : VoteFacts) (cmd : CastVoteCmd) (s : Store) (v : VoteDb) (row : VoteRow) :
    Except AppError VoteReceipt := do
  let market ← okOr (s.market row.market) (.store (.notFound "market"))
  refuse (∃ p ∈ find Prod.fst cmd.idempotencyKey v.fingerprints, p.2 ≠ voteFingerprint cmd)
    .idempotencyConflict
  pure { market := row.market, user := row.user, side := row.side
         crowdGuessPct := row.crowdGuessPct
         seq := shownSeq market.state facts.guardNow market.tallyHiddenAt row.seq
         replayed := true }

def secs (n : Nat) : Except AppError Int := do
  let n ← okOr (tryI64 n) .overflow
  pure (n * 1000000000)

/-- Live or closing, and before the close. -/
def gateOpen (now : Instant) (market : MarketRow) : Except AppError Unit := do
  refuse (market.state ≠ .live ∧ market.state ≠ .closing) .marketNotOpen
  refuse (market.closesAt ≤ now) .votingClosed

/-- A bounded number of votes in the trailing window, and no young account near the
close. -/
def gateIntegrity (cfg : VoteIntegrityConfig) (facts : VoteFacts) (user : UserId)
    (market : MarketRow) (v : VoteDb) : Except AppError Unit := do
  refuse (facts.hasChannel = false) .phoneVerificationRequired
  let window ← secs cfg.windowSecs
  refuse (cfg.maxVotesPerWindow ≤ v.votesCountSince user (facts.now - window))
    .voteVelocityExceeded
  let nearClose ← secs cfg.nearCloseSecs
  let minAge ← secs cfg.minAccountAgeSecs
  if market.closesAt - nearClose ≤ facts.now then do
    let createdAt ← facts.userCreatedAt
    refuse (facts.now - createdAt < minAge) .accountTooYoungNearClose
  else pure ()

/-- The fence point of a vote: a pause counts before the hidden window only. -/
def gateVoteFence (facts : VoteFacts) (market : MarketRow) : Except AppError Unit :=
  refuse (facts.now < market.tallyHiddenAt ∧ pauseInForce facts.votingPaused) .votingPaused

/-- One vote per user and market. -/
def insertVote (facts : VoteFacts) (cmd : CastVoteCmd) (v : VoteDb) :
    Except AppError (Int × VoteDb) := do
  refuse (v.userVoted cmd.user cmd.market) .alreadyVoted
  let seq := v.nextSeq cmd.market
  pure (seq, {
    votes := v.votes ++ [{ idempotencyKey := cmd.idempotencyKey, market := cmd.market
                           user := cmd.user, side := cmd.side
                           crowdGuessPct := cmd.crowdGuessPct, seq := seq
                           createdAt := facts.now }]
    counters := upsert Prod.fst (cmd.market, seq) v.counters
    fingerprints := v.fingerprints ++ [(cmd.idempotencyKey, voteFingerprint cmd)] })

/-- `CastVote::execute`: one transaction, so an error leaves both stores as they
were. -/
def castVote (cfg : VoteIntegrityConfig) (facts : VoteFacts) (cmd : CastVoteCmd)
    (db : Store × VoteDb) : Except AppError (VoteReceipt × Store × VoteDb) := do
  refuse (100 < cmd.crowdGuessPct) .invalidCrowdGuess
  match find VoteRow.idempotencyKey cmd.idempotencyKey db.2.votes with
  | some row => do
    let receipt ← replayVote facts cmd db.1 db.2 row
    pure (receipt, db)
  | none => do
    let ledger ← convertThenCollect db.1.ledger cmd.user cmd.idempotencyKey facts.lots
      facts.receivables
    facts.gate
    let market ← okOr (db.1.market cmd.market) (.store (.notFound "market"))
    gateOpen facts.now market
    gateIntegrity cfg facts cmd.user market db.2
    gateVoteFence facts market
    let (seq, v) ← insertVote facts cmd db.2
    pure ({ market := cmd.market, user := cmd.user, side := cmd.side
            crowdGuessPct := cmd.crowdGuessPct
            seq := shownSeq market.state facts.now market.tallyHiddenAt seq
            replayed := false }, { db.1 with ledger := ledger }, v)

/-- A vote that was not a replay: the market it passed the checks of and what it
wrote. -/
structure Recorded (facts : VoteFacts) (cmd : CastVoteCmd) (db db' : Store × VoteDb) where
  ledger : Ledger
  market : MarketRow
  seq : Int
  votes : VoteDb
  converted : convertThenCollect db.1.ledger cmd.user cmd.idempotencyKey facts.lots
    facts.receivables = .ok ledger
  found : db.1.market cmd.market = some market
  opened : gateOpen facts.now market = .ok ()
  fenced : gateVoteFence facts market = .ok ()
  inserted : insertVote facts cmd db.2 = .ok (seq, votes)
  result : db' = ({ db.1 with ledger := ledger }, votes)

theorem castVote_cases {cfg : VoteIntegrityConfig} {facts : VoteFacts} {cmd : CastVoteCmd}
    {db db' : Store × VoteDb} {receipt : VoteReceipt}
    (h : castVote cfg facts cmd db = .ok (receipt, db')) :
    (receipt.replayed = true ∧ db' = db) ∨
      (receipt.replayed = false ∧ Nonempty (Recorded facts cmd db db')) := by
  simp only [castVote, ok_iff] at h
  obtain ⟨_, -, h⟩ := h
  split at h
  · simp only [replayVote, ok_iff] at h
    obtain ⟨_, ⟨_, -, _, -, rfl⟩, rfl, rfl⟩ := h
    exact Or.inl ⟨rfl, rfl⟩
  · simp only [ok_iff] at h
    obtain ⟨ledger, hconv, _, -, market, hmarket, _, hopen, _, -, _, hfence, ⟨seq, votes⟩,
      hinsert, rfl, rfl⟩ := h
    exact Or.inr ⟨rfl,
      ⟨⟨ledger, market, seq, votes, hconv, hmarket, hopen, hfence, hinsert, rfl⟩⟩⟩

end Opinions.Vote
