import Opinions.Fence.Frozen

/-! Pauses against the operations they stop. A trade reads the trading pauses, and a
vote the voting pause, under the shared side of the fence whose exclusive side the
writer of the flag holds to its commit. So a flag cannot change between the read and
the end of the operation, and what commits while a pause is in force has seen it. -/

namespace Opinions.Fence

open Lib.Result Lib.Run Config Model Trade Vote Store

/-- A key that names a market does so by the canonical text of its id. -/
def CanonicalKey (key : String) : Prop :=
  ∀ f : Family, ∀ spelling ∈ stripFamily f.name key, ∀ u ∈ Uuid.parseStr spelling,
    spelling = Uuid.text u

instance (key : String) : Decidable (CanonicalKey key) :=
  have (spelling : List Char) : Decidable (∀ u ∈ Uuid.parseStr spelling, spelling = Uuid.text u) :=
    Option.decidableForallMem _
  have (f : Family) : Decidable (∀ spelling ∈ stripFamily f.name key,
      ∀ u ∈ Uuid.parseStr spelling, spelling = Uuid.text u) := Option.decidableForallMem _
  decidable_of_iff (∀ f ∈ [Family.marketPaused, .votingPaused, .feeOverride],
      ∀ spelling ∈ stripFamily f.name key, ∀ u ∈ Uuid.parseStr spelling, spelling = Uuid.text u)
    ⟨fun h f => h f (by cases f <;> simp), fun h f _ => h f⟩

def CanonicalPatch (w : World) : Action → Prop
  | .commit i => ∀ x ∈ w.writerAt i, ∀ object ∈ x.cmd.object x.now w.config,
      ∀ key ∈ object.keys, CanonicalKey key
  | _ => True

instance (w : World) (a : Action) : Decidable (CanonicalPatch w a) :=
  match a with
  | .commit i => inferInstanceAs (Decidable (∀ x ∈ w.writerAt i,
      ∀ object ∈ x.cmd.object x.now w.config, ∀ key ∈ object.keys, CanonicalKey key))
  | .start _ _ | .advance _ | .abort _ | .book _ => inferInstanceAs (Decidable True)

/-- A pause of the family is in force for the market, under any spelling of its id. -/
def InForce (f : Family) (db : ConfigDb) (m : MarketId) : Prop :=
  ∃ spelling, Uuid.parseStr spelling = some m.uuid ∧
    pauseInForce (db.fenceConfigValue (scopedKey f.name spelling)) = true

/-- Trading on the market is paused, for every market or for this one. -/
def TradingPaused (db : ConfigDb) (m : MarketId) : Prop :=
  pauseInForce (db.fenceConfigValue "trading_paused") = true ∨ InForce .marketPaused db m

/-- Every key that has an entry is canonical. -/
def CanonicalKeys (db : ConfigDb) : Prop :=
  ∀ key v, lookup db.entries key = some v → CanonicalKey key

variable {db : ConfigDb} {j : Nat} {s : Session} {x : WriteSession} {locks locks' : Locks}

theorem CanonicalKeys.effect {now : Int} {times : MarketId → Option MarketTimes} {db' : ConfigDb}
    {object : Option Object} (hdb : CanonicalKeys db) (h : ConfigEffect now times db db' object)
    (hobject : ∀ o ∈ object, ∀ key ∈ o.keys, CanonicalKey key) : CanonicalKeys db' := by
  intro key v hv
  cases h with
  | kept hnone h => exact hdb key v (h ▸ hv)
  | patched written hwritten haccepted =>
    rw [haccepted.entries, Option.or_eq_some_iff] at hv
    rcases hv with hnew | ⟨-, hold⟩
    · exact hobject written hwritten key (List.mem_map_of_mem (f := Prod.fst) (mem_of_lookup hnew))
    · exact hdb key v hold

/-- With canonical keys a pause in force is the one its readers look up. -/
theorem CanonicalKeys.inForce (hdb : CanonicalKeys db) {f : Family} {m : MarketId}
    (h : InForce f db m) : pauseInForce (db.fenceConfigValue (f.key m)) := by
  obtain ⟨spelling, hparse, hforce⟩ := h
  cases hv : db.fenceConfigValue (scopedKey f.name spelling) with
  | none => rw [hv] at hforce; cases hforce
  | some v =>
    obtain rfl := hdb _ v hv f spelling (stripFamily_scopedKey _ _) m.uuid hparse
    exact hforce

/-- The pause flags a session has read are the committed ones. -/
def Seen (db : ConfigDb) : Session → Prop
  | .trade t =>
    (4 ≤ t.pc.rank → t.facts.config.tradingPaused = db.fenceConfigValue "trading_paused") ∧
    (5 ≤ t.pc.rank →
      t.facts.config.marketPaused = db.fenceConfigValue (marketPausedKey t.cmd.market))
  | .vote v =>
    v.pc = .ready → v.facts.votingPaused = db.fenceConfigValue (votingPausedKey v.cmd.market)
  | .write _ => True

variable {w : World} {i : Nat} {config : ConfigDb}

/-- A writer that may commit leaves every key whose fence another session shares. -/
theorem Sound.unwritten (hw : Sound w) (hi : w.session i = some (.write x))
    (hj : w.session j = some s) (hreader : ∀ y, s ≠ .write y)
    (hfences : x.missing i w.config w.locks = [])
    (heffect : ConfigEffect x.now w.times w.config config (x.cmd.object x.now w.config))
    {key fence : String} (hshared : ⟨j, fence, .shared⟩ ∈ w.locks)
    (hfence : ∀ keys, key ∈ keys → fence ∈ exclusiveFencesForPatch keys) :
    config.fenceConfigValue key = w.config.fenceConfigValue key := by
  refine heffect.lookup_of_notMem fun object hobject hkey => ?_
  have hexclusive := x.holds_of_missing hfences hobject (hfence _ hkey)
  obtain rfl := hw.safe.owner_eq hexclusive hshared
  exact hreader x (Option.mem_unique hj hi)

theorem TradeSession.seen_advance {t t' : TradeSession} (ht : Seen config (.trade t))
    (h : t.advance i config locks = .ok (locks', t')) : Seen config (.trade t') := by
  cases hpc : t.pc <;> simp only [TradeSession.advance, hpc] at h
  case quoted | globalHeld =>
    simp only [ok_iff] at h
    obtain ⟨_, -, -, rfl⟩ := h
    exact ⟨fun hle => absurd hle (by simp [TradePc.rank]),
      fun hle => absurd hle (by simp [TradePc.rank])⟩
  case ready => cases h
  case begun =>
    cases h
    exact ⟨fun hle => absurd hle (by simp [TradePc.rank]),
      fun hle => absurd hle (by simp [TradePc.rank])⟩
  case fenced =>
    -- the trading flag is recorded here
    cases h
    exact ⟨fun _ => rfl, fun hle => absurd hle (by simp [TradePc.rank])⟩
  case tradingRead =>
    -- and the market's flag here
    cases h
    exact ⟨fun _ => ht.1 (by rw [hpc]; decide), fun _ => rfl⟩
  case marketRead | votingRead =>
    cases h
    exact ⟨fun _ => ht.1 (by rw [hpc]; decide), fun _ => ht.2 (by rw [hpc]; decide)⟩

theorem VoteSession.seen_advance {v v' : VoteSession}
    (h : v.advance i config locks = .ok (locks', v')) : Seen config (.vote v') := by
  cases hpc : v.pc <;> simp only [VoteSession.advance, hpc] at h
  case begun =>
    simp only [ok_iff] at h
    obtain ⟨_, -, -, rfl⟩ := h
    exact fun hready => absurd hready (by simp)
  case fenced =>
    cases h
    exact fun _ => rfl
  case ready => cases h

/-- The commit of a writer keeps what every reader has seen. -/
theorem Sound.seen_commit (hw : Sound w) (hi : w.session i = some (.write x))
    (hj : w.session j = some s) (hfences : x.missing i w.config w.locks = [])
    (heffect : ConfigEffect x.now w.times w.config config (x.cmd.object x.now w.config))
    (hs : Seen w.config s) : Seen config s := by
  cases s with
  | trade t =>
    obtain ⟨hglobal, hmarket⟩ := hw.trade j t hj
    refine ⟨fun hle => ?_, fun hle => ?_⟩
    · exact (hs.1 hle).trans (hw.unwritten hi hj (by simp) hfences heffect (hglobal (by omega))
        fun _ => tradingGlobalFence_mem).symm
    · exact (hs.2 hle).trans (hw.unwritten hi hj (by simp) hfences heffect (hmarket (by omega))
        fun _ hkey => mem_exclusiveFencesForPatch hkey (scopedFence_marketPaused _)).symm
  | vote v =>
    intro hready
    have hheld := hw.vote j v hj (by rw [hready]; decide)
    exact (hs hready).trans (hw.unwritten hi hj (by simp) hfences heffect hheld
      fun _ hkey => mem_exclusiveFencesForPatch hkey (scopedFence_votingPaused _)).symm
  | write => trivial

structure Linear (w : World) : Prop where
  sound : Sound w
  keys : CanonicalKeys w.config
  seen : ∀ i s, w.session i = some s → Seen w.config s

theorem linear_init (h : ∀ member ∈ config.entries, CanonicalKey member.1) :
    Linear (World.init config) where
  sound := sound_init config
  keys := fun _ _ hv => h _ (mem_of_lookup hv)
  seen := fun _ _ h => absurd h (by simp [World.session, World.init])

theorem Linear.moved {w' : World} {a : Action} (hw : Linear w) (hc : CanonicalPatch w a)
    (h : Moved w a w') : Linear w' where
  sound := hw.sound.moved h
  keys := by
    cases h with
    | commitWrite i x config hs hfences h =>
      exact hw.keys.effect (ConfigDb.step_effect h) (hc x (World.writerAt_eq_some.2 hs))
    | _ => exact hw.keys
  seen := by
    refine h.session_tracked hw.seen ?_ ?_ ?_ ?_
    · rintro (⟨rep, cmd, facts⟩ | ⟨cfg, cmd, facts⟩ | ⟨cmd, now⟩)
      · exact ⟨fun hle => absurd hle (by simp [TradePc.rank]),
          fun hle => absurd hle (by simp [TradePc.rank])⟩
      · exact fun hready => absurd hready (by simp)
      · trivial
    · exact fun i t locks t' _ hs hadvance => t.seen_advance (hw.seen i _ hs) hadvance
    · exact fun i v locks v' _ hs hadvance => v.seen_advance hadvance
    · exact fun i x config _ hs hfences heffect j s hj =>
        hw.sound.seen_commit hs hj hfences heffect (hw.seen j s hj)

/-- A vote of the run's last world that is accepted and is no replay. -/
def Casts (w : World) (i : Nat) (v : VoteSession) (receipt : VoteReceipt) (db : Store × VoteDb) :
    Prop :=
  w.session i = some (.vote v) ∧ v.pc = .ready ∧
    castVote v.cfg v.facts v.cmd (w.store, w.votes) = .ok (receipt, db) ∧ receipt.replayed = false

/-- The vote reads its clock before the hidden window of its market. -/
def BeforeHidden (s : Store) (v : VoteSession) : Prop :=
  ∃ market ∈ s.market v.cmd.market, v.facts.now < market.tallyHiddenAt

/-- An accepted vote before the hidden window read no pause in force. -/
theorem votingPaused_of_castVote {cfg : VoteIntegrityConfig} {facts : VoteFacts}
    {cmd : CastVoteCmd} {db db' : Store × VoteDb} {receipt : VoteReceipt}
    (h : castVote cfg facts cmd db = .ok (receipt, db')) (hnew : receipt.replayed = false)
    {market : MarketRow} (hmarket : db.1.market cmd.market = some market)
    (hbefore : facts.now < market.tallyHiddenAt) : pauseInForce facts.votingPaused = false := by
  rcases castVote_cases h with ⟨hreplayed, -⟩ | ⟨-, ⟨r⟩⟩
  · cases hreplayed.symm.trans hnew
  · have hfenced := r.fenced
    obtain rfl := Option.mem_unique hmarket r.found
    simp only [gateVoteFence, refuse_eq_ok, not_and] at hfenced
    simpa using hfenced hbefore

/-- In every run of trades, votes and writers of canonical keys, no trade commits while
a trading pause of its market is in force, and no vote cast before the hidden window
commits while a voting pause of its market is. -/
theorem pauses_linearizable {config : ConfigDb}
    (hkeys : ∀ member ∈ config.entries, CanonicalKey member.1) (actions : List Action)
    (hc : Along World.step CanonicalPatch (World.init config) actions) :
    (∀ i t receipt store, Accepts (run World.step (World.init config) actions) i t receipt store →
      ¬TradingPaused (run World.step (World.init config) actions).config t.cmd.market) ∧
    (∀ i v receipt db, Casts (run World.step (World.init config) actions) i v receipt db →
      BeforeHidden (run World.step (World.init config) actions).store v →
      ¬InForce .votingPaused (run World.step (World.init config) actions).config
        v.cmd.market) := by
  have hw : Linear (run World.step (World.init config) actions) :=
    run_preserves_along (fun _ _ _ hw hc h => hw.moved hc (World.step_moved h))
      (linear_init hkeys) hc
  generalize run World.step (World.init config) actions = w at hw
  constructor
  · rintro i t receipt store ⟨hs, hready, hplace, hnew⟩ hpaused
    obtain ⟨htrading, hmarket, -⟩ := pauses_of_placeTrade hplace hnew
    obtain ⟨hseenTrading, hseenMarket⟩ := hw.seen i _ hs
    rw [hseenTrading (by rw [hready]; decide)] at htrading
    rw [hseenMarket (by rw [hready]; decide)] at hmarket
    rcases hpaused with hforce | hforce
    · cases hforce.symm.trans htrading
    · cases (hw.keys.inForce hforce).symm.trans hmarket
  · rintro i v receipt db ⟨hs, hready, hcast, hnew⟩ ⟨market, hmarket, hbefore⟩ hforce
    have hopen := votingPaused_of_castVote hcast hnew hmarket hbefore
    rw [hw.seen i _ hs hready] at hopen
    cases (hw.keys.inForce hforce).symm.trans hopen

def voter : VoteFacts :=
  { guardNow := 10, now := 10, lots := [], receivables := [], gate := .ok (), hasChannel := true
    userCreatedAt := .ok 0, votingPaused := none }

/-- The trade of `liftedActions` and a vote on the same market, both about to commit. -/
def resumedActions : List Action :=
  liftedActions ++ [.start 1 (.vote ⟨5, 60, 0, 0⟩ ⟨⟨1#128⟩, ⟨8#128⟩, .yes, 60, "vote"⟩ voter),
    .advance 1, .advance 1]

/-- Whether the vote under an id would be recorded, before the hidden window. -/
def castAt (w : World) (i : Nat) : Bool :=
  match w.session i with
  | some (.vote v) =>
    match castVote v.cfg v.facts v.cmd (w.store, w.votes) with
    | .ok (receipt, _) => v.pc = .ready ∧ receipt.replayed = false ∧
        (w.store.market v.cmd.market).any fun market => v.facts.now < market.tallyHiddenAt
    | .error _ => false
  | _ => false

theorem casts_of_castAt (h : castAt w i) :
    ∃ v receipt db, Casts w i v receipt db ∧ BeforeHidden w.store v := by
  unfold castAt at h
  split at h
  · rename_i v hs
    split at h
    · rename_i receipt db hcast
      simp only [Option.any_eq_true_iff_get, decide_eq_true_eq] at h
      obtain ⟨hready, hnew, hsome, hbefore⟩ := h
      exact ⟨v, receipt, db, ⟨hs, hready, hcast, hnew⟩, _, Option.get_mem hsome,
        hbefore⟩
    · cases h
  · cases h

theorem resumedActions_unpaused :
    (∃ t receipt store,
      Accepts (run World.step (World.init seededConfig) resumedActions) 0 t receipt store ∧
      ¬TradingPaused (run World.step (World.init seededConfig) resumedActions).config
        t.cmd.market) ∧
    ∃ v receipt db, Casts (run World.step (World.init seededConfig) resumedActions) 1 v receipt
      db ∧ ¬InForce .votingPaused (run World.step (World.init seededConfig) resumedActions).config
        v.cmd.market := by
  have hout : outcomeAt (run World.step (World.init seededConfig) resumedActions) 0 =
      some (.ready, false, 10000, 1000000) := by decide +kernel
  have hcast : castAt (run World.step (World.init seededConfig) resumedActions) 1 = true := by
    decide +kernel
  obtain ⟨t, receipt, store, haccepts, -, -⟩ := accepts_of_outcomeAt hout
  obtain ⟨v, receipt', db, hcasts, hbefore⟩ := casts_of_castAt hcast
  have hkeys : ∀ member ∈ seededConfig.entries, CanonicalKey member.1 := by decide +kernel
  obtain ⟨htrades, hvotes⟩ := pauses_linearizable hkeys resumedActions (by decide +kernel)
  exact ⟨⟨t, receipt, store, haccepts, htrades 0 t receipt store haccepts⟩,
    v, receipt', db, hcasts, hvotes 1 v receipt' db hcasts hbefore⟩

end Opinions.Fence
