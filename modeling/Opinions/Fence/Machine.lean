import Opinions.Config.Proposal
import Opinions.Lib.Locks
import Opinions.Trade.Backing
import Opinions.Vote.Cast

/-! Trades, votes and config writers as concurrent transactions. Each statement
reads the latest committed config; advisory fences are shared by trades and votes
and exclusive to config writers, up to the end of the transaction. The rows of a
trade or a vote are locked from its start, so what it does to the store is one step
at its commit. -/

namespace Opinions.Fence

open Lib.Result Lib.Rows Lib.Locks Config Model Trade Vote Store

/-- The statement a trade is at, named by the last one it made. -/
inductive TradePc
  | begun
  | quoted
  | globalHeld
  | fenced
  | tradingRead
  | marketRead
  | votingRead
  | ready
  deriving DecidableEq

/-- A trade in flight. `facts.config` collects the config values as they are read;
`fencePoint` remembers the config at the moment both fences were held. -/
structure TradeSession where
  rep : RepConfig
  cmd : PlaceTradeCmd
  facts : TradeFacts
  pc : TradePc
  fencePoint : ConfigDb

inductive VotePc
  | begun
  | fenced
  | ready
  deriving DecidableEq

structure VoteSession where
  cfg : VoteIntegrityConfig
  cmd : CastVoteCmd
  facts : VoteFacts
  pc : VotePc

/-- A config writer in flight, at the clock it read. -/
structure WriteSession where
  cmd : ConfigCommand
  now : Int
  deriving DecidableEq

inductive Session
  | trade (t : TradeSession)
  | vote (v : VoteSession)
  | write (x : WriteSession)

def Session.trade? : Session → Option TradeSession
  | .trade t => some t
  | _ => none

def Session.write? : Session → Option WriteSession
  | .write x => some x
  | _ => none

abbrev Locks := Table Nat String

/-- Why a statement does not run: it waits for a lock, it is out of turn, or its
transaction is refused. -/
inductive Blocked
  | noSession
  | sessionExists
  | waiting
  | notReady
  | refused (e : AppError)

def share (locks : Locks) (i : Nat) (fence : String) : Except Blocked Locks :=
  okOr (acquire locks ⟨i, fence, .shared⟩) .waiting

/-- The next statement of a trade: the fee override, the two fences in order, the
pause flags, the changes since the previewed version. -/
def TradeSession.advance (i : Nat) (config : ConfigDb) (locks : Locks) (t : TradeSession) :
    Except Blocked (Locks × TradeSession) :=
  let m := t.cmd.market
  let reads := t.facts.config
  let read (pc : TradePc) (config : ConfigReads) : Except Blocked (Locks × TradeSession) :=
    .ok (locks, { t with pc := pc, facts := { t.facts with config := config } })
  match t.pc with
  | .begun => read .quoted { reads with
      feeOverride := config.fenceConfigValue (feeOverrideKey m) }
  | .quoted => do
    let locks ← share locks i tradingGlobalFence
    pure (locks, { t with pc := .globalHeld })
  | .globalHeld => do
    let locks ← share locks i (tradingMarketFence m)
    pure (locks, { t with pc := .fenced, fencePoint := config })
  | .fenced => read .tradingRead { reads with
      tradingPaused := config.fenceConfigValue "trading_paused" }
  | .tradingRead => read .marketRead { reads with
      marketPaused := config.fenceConfigValue (marketPausedKey m) }
  | .marketRead => read .votingRead { reads with
      votingPaused := config.fenceConfigValue (votingPausedKey m) }
  | .votingRead =>
    let since := config.fenceChangesSince (t.cmd.expectedConfigVersion.getD 0)
    read .ready { reads with currentGeneration := since.1, changes := since.2 }
  | .ready => .error .notReady

/-- The next statement of a vote: its one fence, then the pause flag. -/
def VoteSession.advance (i : Nat) (config : ConfigDb) (locks : Locks) (v : VoteSession) :
    Except Blocked (Locks × VoteSession) :=
  match v.pc with
  | .begun => do
    let locks ← share locks i (votingMarketFence v.cmd.market)
    pure (locks, { v with pc := .fenced })
  | .fenced =>
    let flag := config.fenceConfigValue (votingPausedKey v.cmd.market)
    .ok (locks, { v with pc := .ready, facts := { v.facts with votingPaused := flag } })
  | .ready => .error .notReady

def WriteSession.missing (i : Nat) (config : ConfigDb) (locks : Locks) (x : WriteSession) :
    List String :=
  (x.cmd.fences x.now config).filter fun f => decide ((⟨i, f, .exclusive⟩ : Hold _ _) ∉ locks)

/-- The next statement of a writer: one more exclusive fence, in canonical order. -/
def WriteSession.advance (i : Nat) (config : ConfigDb) (locks : Locks) (x : WriteSession) :
    Except Blocked Locks :=
  match x.missing i config locks with
  | [] => .error .notReady
  | f :: _ => okOr (acquire locks ⟨i, f, .exclusive⟩) .waiting

structure World where
  config : ConfigDb
  store : Store
  votes : VoteDb
  locks : Locks
  sessions : List (Nat × Session)

inductive Request
  | trade (rep : RepConfig) (cmd : PlaceTradeCmd) (facts : TradeFacts)
  | vote (cfg : VoteIntegrityConfig) (cmd : CastVoteCmd) (facts : VoteFacts)
  | write (cmd : ConfigCommand) (now : Int)

def Request.session (config : ConfigDb) : Request → Session
  | .trade rep cmd facts =>
    .trade { rep := rep, cmd := cmd, facts := facts, pc := .begun, fencePoint := config }
  | .vote cfg cmd facts => .vote { cfg := cfg, cmd := cmd, facts := facts, pc := .begun }
  | .write cmd now => .write { cmd := cmd, now := now }

inductive Action
  | start (i : Nat) (request : Request)
  | advance (i : Nat)
  | commit (i : Nat)
  | abort (i : Nat)
  | book (cmd : Command)

namespace World

def init (config : ConfigDb) : World :=
  { config := config, store := Store.empty, votes := ⟨[], [], []⟩, locks := [], sessions := [] }

def session (w : World) (i : Nat) : Option Session :=
  (find Prod.fst i w.sessions).map Prod.snd

def tradeAt (w : World) (i : Nat) : Option TradeSession := (w.session i).bind Session.trade?

def writerAt (w : World) (i : Nat) : Option WriteSession := (w.session i).bind Session.write?

def trades (w : World) : List TradeSession := w.sessions.filterMap fun p => p.2.trade?

def put (w : World) (i : Nat) (s : Session) : World :=
  { w with sessions := upsert Prod.fst (i, s) w.sessions }

def finish (w : World) (i : Nat) : World :=
  { w with
    sessions := w.sessions.filter fun p => decide (p.1 ≠ i)
    locks := release w.locks i }

def times (w : World) (m : MarketId) : Option MarketTimes :=
  (w.store.market m).map fun r => { tallyHiddenAt := r.tallyHiddenAt, closesAt := r.closesAt }

def advance (w : World) (i : Nat) : Session → Except Blocked World
  | .trade t => do
    let (locks, t') ← t.advance i w.config w.locks
    pure ({ w with locks := locks }.put i (.trade t'))
  | .vote v => do
    let (locks, v') ← v.advance i w.config w.locks
    pure ({ w with locks := locks }.put i (.vote v'))
  | .write x => do
    let locks ← x.advance i w.config w.locks
    pure { w with locks := locks }

/-- The commit of a trade, a vote or a config command. -/
def commit (w : World) (i : Nat) : Session → Except Blocked World
  | .trade t => do
    refuse (t.pc ≠ .ready) .notReady
    let (_, store) ← (placeTrade t.rep t.facts t.cmd w.store).mapError .refused
    pure ({ w with store := store }.finish i)
  | .vote v => do
    refuse (v.pc ≠ .ready) .notReady
    let (_, store, votes) ← (castVote v.cfg v.facts v.cmd (w.store, w.votes)).mapError .refused
    pure ({ w with store := store, votes := votes }.finish i)
  | .write x => do
    refuse (x.missing i w.config w.locks ≠ []) .notReady
    let config ← (w.config.step x.now w.times x.cmd).mapError .refused
    pure ({ w with config := config }.finish i)

/-- The store's other use cases; trades go through sessions. -/
def book (w : World) : Command → Except Blocked World
  | .trade _ _ _ => .error .notReady
  | cmd => do
    let store ← (w.store.step cmd).mapError .refused
    pure { w with store := store }

def step (w : World) : Action → Except Blocked World
  | .start i request => do
    refuse ((w.session i).isSome) .sessionExists
    pure (w.put i (request.session w.config))
  | .advance i => do
    let s ← okOr (w.session i) .noSession
    w.advance i s
  | .commit i => do
    let s ← okOr (w.session i) .noSession
    w.commit i s
  | .abort i => .ok (w.finish i)
  | .book cmd => w.book cmd

end World

end Opinions.Fence
