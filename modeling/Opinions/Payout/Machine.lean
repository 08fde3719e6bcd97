import Opinions.Payout.Settled
import Opinions.Resolve.Effect

/-! Everything that happens to a market from its seed to its payout, one transaction after
the other: seeds, trades, lifecycle edges and other postings on the store, votes, integrity
reports, curator flags, referral binds, and resolutions. -/

namespace Opinions.Payout

open Lib.Result Lib.Rows Domain.Integrity Domain.Market Model Store Trade Vote Resolve Credit

inductive Command
  | market (c : Trade.Command)
  | vote (cfg : VoteIntegrityConfig) (facts : VoteFacts) (cmd : CastVoteCmd)
  | report (m : MarketId) (verdict : Verdict)
  | flag (m : MarketId) (now : Instant)
  | bind (bind : ReferralBind)
  | resolve (cfg : ResolveConfig) (facts : ResolveFacts) (m : MarketId)
      (curatorOverride : Option CuratorDecision)

namespace Book

/-- `flag_curator_needed`: a market under review is flagged once. -/
def flagCuratorNeeded (b : Book) (m : MarketId) (now : Instant) : Book :=
  match b.store.market m with
  | some row =>
    if row.state = .resolving ∧ (b.column m).curatorFlaggedAt = none then
      b.setColumn { b.column m with curatorFlaggedAt := some now }
    else b
  | none => b

/-- A user is referred once, and not by themselves. -/
def insertBind (b : Book) (bind : ReferralBind) : Except AppError Book := do
  refuse (bind.referee ∈ b.binds.map ReferralBind.referee ∨ bind.id ∈ b.binds.map ReferralBind.id)
    (.store (.conflict "referral bind"))
  refuse (bind.referrer = bind.referee) (.store (.integrity "referral_binds_check"))
  pure { b with binds := b.binds ++ [bind] }

def step (b : Book) : Command → Except AppError Book
  | .market c => do
    let store ← b.store.step c
    pure { b with store := store }
  | .vote cfg facts cmd => do
    let (_, store, votes) ← castVote cfg facts cmd (b.store, b.votes)
    pure { b with store := store, votes := votes }
  | .report m verdict => do
    refuse (m ∈ b.reports.map Prod.fst) (.store (.conflict "integrity report"))
    pure { b with reports := b.reports ++ [(m, verdict)] }
  | .flag m now => pure (b.flagCuratorNeeded m now)
  | .bind bind => b.insertBind bind
  | .resolve cfg facts m curatorOverride =>
    (resolveMarket cfg facts m curatorOverride b).map Prod.snd

end Book

variable {b b' : Book}

namespace Book

theorem column_setColumn (b : Book) (c : MarketColumns) (m : MarketId) :
    (b.setColumn c).column m = if m = c.market then c else b.column m := by
  by_cases h : m = c.market
  · rw [if_pos h, column, setColumn, find_upsert_self h.symm]
    rfl
  · rw [if_neg h, column, setColumn, find_upsert_of_ne h]
    rfl

@[simp] theorem market_column (b : Book) (m : MarketId) : (b.column m).market = m := by
  unfold column
  cases h : find MarketColumns.market m b.columns with
  | none => rfl
  | some => exact key_of_find h

theorem lpPnl_setColumn {c : MarketColumns} (h : c.lpPnl = (b.column c.market).lpPnl) (m : MarketId) :
    ((b.setColumn c).column m).lpPnl = (b.column m).lpPnl := by
  rw [column_setColumn]
  split_ifs with hm
  · rw [hm, h]
  · rfl

theorem market_setMarketState (b : Book) (m m' : MarketId) (state : MarketState) :
    (b.setMarketState m state).store.market m' =
      (b.store.market m').map fun r => if m' = m then { r with state := state } else r := by
  have hkept : ∀ r : MarketRow, MarketRow.id { r with state := state } = r.id := fun _ => rfl
  dsimp only [setMarketState, Store.market]
  by_cases h : m' = m
  · subst h
    simp only [find_update_self hkept, if_true]
  · simp only [find_update_of_ne hkept h, if_neg h, Option.map_id']

/-- The market is paid or voided. -/
def Terminal (b : Book) (m : MarketId) : Prop :=
  ∃ row, b.store.market m = some row ∧ (row.state = .paid ∨ row.state = .voided)

theorem terminal_congr (h : b'.store.markets = b.store.markets) (m : MarketId) :
    b'.Terminal m ↔ b.Terminal m := by
  simp only [Terminal, Store.market, h]

end Book

/-- A resolution found its key, held the market, or paid it out. -/
inductive Resolution (cfg : ResolveConfig) (facts : ResolveFacts) (m : MarketId)
    (curatorOverride : Option CuratorDecision) (b : Book) (r : ResolveReceipt) (b' : Book) : Prop
  | replayed (booked : (b.store.ledger.txnByKey (resolveKey m)).isSome)
      (receipt : replayReceipt b m = .ok r) (same : b' = b)
  | held (market : MarketRow) (row : b.store.market market.id = some market) (id : market.id = m)
      (closed : market.state = .closed)
      (hold : holdForReview cfg facts market .resolving b = .ok (r, b'))
  | paid (market : MarketRow) (row : b.store.market market.id = some market) (id : market.id = m)
      (fresh : b.store.ledger.txnByKey (resolveKey m) = none)
      (state : market.state = .resolving ∨ market.state = .closed)
      (paid : PaidOut cfg facts market .resolving (b.store.escrow market.id) curatorOverride b r b')

variable {cfg : ResolveConfig} {curatorOverride : Option CuratorDecision} {facts : ResolveFacts}
  {r : ResolveReceipt}

theorem resolveLocked_cases {market : MarketRow} (hrow : b.store.market market.id = some market)
    (hfresh : b.store.ledger.txnByKey (resolveKey market.id) = none)
    (h : resolveLocked cfg facts market curatorOverride b = .ok (r, b')) :
    Resolution cfg facts market.id curatorOverride b r b' := by
  simp only [resolveLocked, Book.escrowBalance, ok_iff] at h
  obtain ⟨_, -, entered, hentered, _, ⟨_, -, rfl⟩, h⟩ := h
  obtain ⟨rfl, hstate⟩ := enterResolving_spec hentered
  split_ifs at h with hhold
  · exact .held market hrow rfl hhold.1 h
  · obtain ⟨p⟩ := payOut_cases h
    exact .paid market hrow rfl hfresh hstate p

theorem resolveMarket_cases {m : MarketId}
    (h : resolveMarket cfg facts m curatorOverride b = .ok (r, b')) :
    Resolution cfg facts m curatorOverride b r b' := by
  unfold resolveMarket at h
  split at h
  · simp only [ok_iff] at h
    obtain ⟨_, hreceipt, rfl, rfl⟩ := h
    exact .replayed (by simp [*]) hreceipt rfl
  · rename_i hnone
    simp only [ok_iff] at h
    obtain ⟨_, -, _, -, market, hmarket, h⟩ := h
    obtain rfl : market.id = m := key_of_find hmarket
    exact resolveLocked_cases hmarket hnone h

theorem not_terminal_of_closed {state : MarketState} (h : state = .resolving ∨ state = .closed) :
    state ≠ .paid ∧ state ≠ .voided := by
  rcases h with h | h <;> rw [h] <;> decide

/-- A hold writes the due time and a command. -/
theorem lpPnl_of_due (b : Book) (m : MarketId) (dueAt : Instant) (m' : MarketId) :
    ((b.setColumn { b.column m with integrityDueAt := some dueAt }).column m').lpPnl =
      (b.column m').lpPnl := by
  refine Book.lpPnl_setColumn ?_ m'
  dsimp only
  rw [Book.market_column]

/-- What one step did: a command on the store, a vote with its conversion, a change of other
tables, a hold or a payout. -/
inductive Moved (b : Book) : Command → Book → Prop
  | market (c : Trade.Command) (store : Store) (stepped : b.store.step c = .ok store) :
      Moved b (.market c) { b with store := store }
  | vote (cfg : VoteIntegrityConfig) (facts : VoteFacts) (cmd : CastVoteCmd) (ledger : Ledger)
      (votes : VoteDb) (converted : convertThenCollect b.store.ledger cmd.user cmd.idempotencyKey
        facts.lots facts.receivables = .ok ledger) :
      Moved b (.vote cfg facts cmd)
        { b with store := { b.store with ledger := ledger }, votes := votes }
  | quiet (c : Command) (binds : List ReferralBind) (columns : List MarketColumns)
      (reports : List (MarketId × Verdict))
      (lpPnl : ∀ m, ({ b with columns := columns }.column m).lpPnl = (b.column m).lpPnl) :
      Moved b c { b with binds := binds, columns := columns, reports := reports }
  | held (c : Command) (market : MarketRow) (columns : List MarketColumns)
      (commands : List (String × LifecycleCommand))
      (row : b.store.market market.id = some market) (closed : market.state = .closed)
      (lpPnl : ∀ m, ({ b with columns := columns }.column m).lpPnl = (b.column m).lpPnl) :
      Moved b c
        { b.setMarketState market.id .resolving with columns := columns, commands := commands }
  | paid (c : Command) (cfg : ResolveConfig) (facts : ResolveFacts) (market : MarketRow)
      (curatorOverride : Option CuratorDecision) (r : ResolveReceipt) (b' : Book)
      (row : b.store.market market.id = some market)
      (state : market.state = .resolving ∨ market.state = .closed)
      (paid : PaidOut cfg facts market .resolving (b.store.escrow market.id) curatorOverride b r
        b') : Moved b c b'

theorem step_moved {c : Command} (h : b.step c = .ok b') : Moved b c b' := by
  cases c with
  | market c =>
    simp only [Book.step, ok_iff] at h
    obtain ⟨store, hstore, rfl⟩ := h
    exact .market c store hstore
  | vote cfg facts cmd =>
    simp only [Book.step, ok_iff] at h
    obtain ⟨⟨receipt, store, votes⟩, hvote, rfl⟩ := h
    rcases castVote_cases hvote with ⟨-, hsame⟩ | ⟨-, ⟨recorded⟩⟩
    · cases hsame
      exact .quiet _ b.binds b.columns b.reports fun _ => rfl
    · obtain ⟨ledger, _, _, _, hconverted, -, -, -, -, hresult⟩ := recorded
      cases hresult
      exact .vote cfg facts cmd ledger votes hconverted
  | report =>
    simp only [Book.step, ok_iff] at h
    obtain ⟨_, -, rfl⟩ := h
    exact .quiet _ b.binds b.columns _ fun _ => rfl
  | flag =>
    cases h
    unfold Book.flagCuratorNeeded
    split
    · split_ifs
      · refine .quiet _ b.binds _ b.reports (Book.lpPnl_setColumn ?_)
        dsimp only
        rw [Book.market_column]
      · exact .quiet _ b.binds b.columns b.reports fun _ => rfl
    · exact .quiet _ b.binds b.columns b.reports fun _ => rfl
  | bind =>
    simp only [Book.step, Book.insertBind, ok_iff] at h
    obtain ⟨_, -, _, -, rfl⟩ := h
    exact .quiet _ _ b.columns b.reports fun _ => rfl
  | resolve cfg facts =>
    obtain ⟨r, hresolve⟩ := map_snd_eq_ok.1 h
    cases resolveMarket_cases hresolve with
    | replayed _ _ same =>
      subst same
      exact .quiet _ b'.binds b'.columns b'.reports fun _ => rfl
    | held market row _ closed hold =>
      simp only [holdForReview, Book.recordCommand, ok_iff] at hold
      obtain ⟨delay, -, _, ⟨_, -, rfl⟩, -, rfl⟩ := hold
      exact .held _ market _ _ row closed (lpPnl_of_due b market.id _)
    | paid market row _ _ state paid => exact .paid _ cfg facts market _ r b' row state paid

end Opinions.Payout
