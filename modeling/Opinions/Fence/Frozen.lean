import Opinions.Fence.Observed

/-! Trades against a frozen tape. A trade reads the voting pause of its market under
the trading fences, and the writer of a voting pause takes the voting fence, so the
pause can commit between the trade's read and its commit. Without that overlap, and
with the market's canonical text in the key, no trade commits while it is in force. -/

namespace Opinions.Fence

open Lib.Result Lib.Run Config Model Trade Store

/-- The entries under a spelling of the market's voting pause. -/
def votingFlag (db : ConfigDb) (spelling : List Char) : Option Value :=
  db.fenceConfigValue (scopedKey "voting_paused:" spelling)

/-- A voting pause of the market is in force, under any spelling of its id. -/
def VotingFrozen (db : ConfigDb) (m : MarketId) : Prop :=
  ∃ spelling, Uuid.parseStr spelling = some m.uuid ∧ pauseInForce (votingFlag db spelling) = true

/-- A member that sets a voting pause does so under the canonical text. -/
def Canonical (member : String × Value) : Prop :=
  pauseInForce (some member.2) = true →
    ∀ spelling ∈ stripFamily "voting_paused:" member.1, ∀ u ∈ Uuid.parseStr spelling,
      spelling = Uuid.text u

/-- A member that sets the voting pause of a market finds no trade on it between its
read of the flag and its commit. -/
def Apart (trades : List TradeSession) (member : String × Value) : Prop :=
  pauseInForce (some member.2) = true →
    ∀ t ∈ trades, member.1 = votingPausedKey t.cmd.market → t.pc ≠ .votingRead ∧ t.pc ≠ .ready

-- the quantifier over ids is the option's: the one over all bit vectors does not evaluate
instance (member : String × Value) : Decidable (Canonical member) :=
  have (spelling : List Char) : Decidable (∀ u ∈ Uuid.parseStr spelling, spelling = Uuid.text u) :=
    Option.decidableForallMem _
  inferInstanceAs (Decidable (_ → ∀ spelling ∈ stripFamily "voting_paused:" member.1, _))

instance (trades : List TradeSession) (member : String × Value) :
    Decidable (Apart trades member) :=
  inferInstanceAs (Decidable (_ → ∀ t ∈ trades, _ → _))

/-- What the writer under `i` commits is canonical and apart from the trades in
flight. -/
def Unraced (w : World) (i : Nat) : Prop :=
  ∀ x ∈ w.writerAt i, ∀ object ∈ x.cmd.object x.now w.config, ∀ member ∈ object.members,
    Canonical member ∧ Apart w.trades member

instance (w : World) (i : Nat) : Decidable (Unraced w i) :=
  inferInstanceAs (Decidable (∀ x ∈ w.writerAt i, ∀ object ∈ x.cmd.object x.now w.config,
    ∀ member ∈ object.members, Canonical member ∧ Apart w.trades member))

def Ordered (w : World) : Action → Prop
  | .commit i => Unraced w i
  | _ => True

instance (w : World) (a : Action) : Decidable (Ordered w a) :=
  match a with
  | .commit i => inferInstanceAs (Decidable (Unraced w i))
  | .start _ _ | .advance _ | .abort _ | .book _ => inferInstanceAs (Decidable True)

/-- Pauses in force have canonical keys. -/
def Spelled (db : ConfigDb) : Prop :=
  ∀ spelling u, Uuid.parseStr spelling = some u → pauseInForce (votingFlag db spelling) = true →
    spelling = Uuid.text u

/-- A trade that has read an open flag and not ended: the flag is still open. -/
def Unfrozen (db : ConfigDb) (t : TradeSession) : Prop :=
  t.pc = .votingRead ∨ t.pc = .ready →
    pauseInForce t.facts.config.votingPaused = false →
    pauseInForce (db.fenceConfigValue (votingPausedKey t.cmd.market)) = false

structure Thawed (w : World) : Prop where
  spelled : Spelled w.config
  unfrozen : ∀ i t, w.session i = some (.trade t) → Unfrozen w.config t

variable {db : ConfigDb}

theorem spelled_of_canonical (h : ∀ member ∈ db.entries, Canonical member) : Spelled db := by
  intro spelling u hparse hforce
  cases hv : votingFlag db spelling with
  | none => rw [hv] at hforce; cases hforce
  | some =>
    rw [hv] at hforce
    exact h _ (mem_of_lookup hv) hforce spelling (stripFamily_scopedKey _ _) u hparse

variable {db' : ConfigDb} {now : Int} {object : Option Object}
  {times : MarketId → Option MarketTimes} {t : TradeSession}

theorem Spelled.effect (hdb : Spelled db) (h : ConfigEffect now times db db' object)
    (hcanonical : ∀ o ∈ object, ∀ member ∈ o.members, Canonical member) : Spelled db' := by
  cases h with
  | kept hnone h =>
    intro spelling u hparse hforce
    rw [votingFlag, ConfigDb.fenceConfigValue, h] at hforce
    exact hdb spelling u hparse hforce
  | patched written hobject haccepted =>
    intro spelling u hparse hforce
    rw [votingFlag, ConfigDb.fenceConfigValue, haccepted.entries] at hforce
    cases hv : lookup written.members (scopedKey "voting_paused:" spelling) with
    | none =>
      rw [hv, Option.none_or] at hforce
      exact hdb spelling u hparse hforce
    | some =>
      rw [hv, Option.some_or] at hforce
      exact hcanonical written hobject _ (mem_of_lookup hv) hforce spelling
        (stripFamily_scopedKey _ _) u hparse

theorem Unfrozen.effect (ht : Unfrozen db t) (h : ConfigEffect now times db db' object)
    {trades : List TradeSession} (hmem : t ∈ trades)
    (hapart : ∀ o ∈ object, ∀ member ∈ o.members, Apart trades member) : Unfrozen db' t := by
  intro hpc hread
  cases h with
  | kept hnone h =>
    rw [ConfigDb.fenceConfigValue, h]
    exact ht hpc hread
  | patched written hobject haccepted =>
    rw [ConfigDb.fenceConfigValue, haccepted.entries]
    cases hv : lookup written.members (votingPausedKey t.cmd.market) with
    | none =>
      rw [Option.none_or]
      exact ht hpc hread
    | some v =>
      rw [Option.some_or]
      by_contra hforce
      have hset : pauseInForce (some v) = true := by simpa using hforce
      obtain ⟨hvoting, hready⟩ := hapart written hobject _ (mem_of_lookup hv) hset t hmem rfl
      exact hpc.elim hvoting hready

theorem Unfrozen.advance {i : Nat} {config : ConfigDb} {locks locks' : Locks} {t' : TradeSession}
    (ht : Unfrozen config t) (h : t.advance i config locks = .ok (locks', t')) :
    Unfrozen config t' := by
  cases hpc : t.pc <;> simp only [TradeSession.advance, hpc] at h
  case quoted | globalHeld =>
    simp only [ok_iff] at h
    obtain ⟨_, -, -, rfl⟩ := h
    exact fun hor => absurd hor (by simp)
  case marketRead =>
    -- the flag it records is the committed one
    cases h
    exact fun _ hread => hread
  case votingRead =>
    cases h
    exact fun _ hread => ht (.inl hpc) hread
  case ready => cases h
  all_goals
    cases h
    exact fun hor => absurd hor (by simp)

theorem Thawed.moved {w w' : World} {a : Action} (hw : Thawed w) (hc : Ordered w a)
    (h : Moved w a w') : Thawed w' where
  spelled := by
    cases h with
    | commitWrite i x config hs hfences h =>
      exact hw.spelled.effect (ConfigDb.step_effect h) fun object hobject member hmember =>
        (hc x (World.writerAt_eq_some.2 hs) object hobject member hmember).1
    | _ => exact hw.spelled
  unfrozen := by
    refine h.tracked hw.unfrozen (fun rep cmd facts hor => absurd hor (by simp)) ?_ ?_
    · rintro i t locks t' rfl hs hadvance ht
      exact ht.advance hadvance
    · rintro i x config rfl hs heffect j t hj ht
      exact ht.effect heffect (World.mem_trades hj) fun object hobject member hmember =>
        (hc x (World.writerAt_eq_some.2 hs) object hobject member hmember).2

/-- An accepted trade read no pause in force. -/
theorem pauses_of_placeTrade {rep : RepConfig} {facts : TradeFacts} {cmd : PlaceTradeCmd}
    {s s' : Store} {receipt : TradeReceipt} (h : placeTrade rep facts cmd s = .ok (receipt, s'))
    (hnew : receipt.replayed = false) :
    pauseInForce facts.config.tradingPaused = false ∧
      pauseInForce facts.config.marketPaused = false ∧
      pauseInForce facts.config.votingPaused = false := by
  rcases placeTrade_cases h with ⟨hreplayed, -⟩ | ⟨b, -⟩
  · cases hreplayed.symm.trans hnew
  · have hprice := b.priced
    simp only [priceTrade, gateFence, ok_iff] at hprice
    obtain ⟨_, -, _, -, _, -, _, -, _, -, _, -, _, -, _, ⟨_, htrading, _, hvoting, -⟩, -⟩ := hprice
    obtain ⟨htrading, hmarket⟩ := not_or.1 htrading
    exact ⟨by simpa using htrading, by simpa using hmarket, by simpa using hvoting⟩

/-- In every run whose steps meet the condition, no trade on a market commits while a
voting pause of the market is in force. -/
theorem no_trade_while_frozen {config : ConfigDb}
    (hcanonical : ∀ member ∈ config.entries, Canonical member) (actions : List Action)
    (hc : Along World.step Ordered (World.init config) actions) {i : Nat} {t : TradeSession}
    {receipt : TradeReceipt} {store : Store}
    (haccepts : Accepts (run World.step (World.init config) actions) i t receipt store) :
    ¬VotingFrozen (run World.step (World.init config) actions).config t.cmd.market := by
  obtain ⟨hs, hready, hplace, hnew⟩ := haccepts
  have hinit : Thawed (World.init config) :=
    ⟨spelled_of_canonical hcanonical,
      fun i t h => absurd h (by simp [World.session, World.init])⟩
  have hw : Thawed (run World.step (World.init config) actions) :=
    run_preserves_along (fun _ _ _ hw hc h => hw.moved hc (World.step_moved h)) hinit hc
  rintro ⟨spelling, hparse, hforce⟩
  obtain rfl := hw.spelled spelling _ hparse hforce
  have hopen := hw.unfrozen i t hs (.inr hready) (pauses_of_placeTrade hplace hnew).2.2
  cases hforce.symm.trans hopen

/-- The voting pause of the small world's market, set or lifted. -/
def votingMember (paused : Bool) : String × Value := (votingPausedKey ⟨1#128⟩, .bool paused)

/-- The pause is set and lifted before the trade reads the flag. -/
def liftedActions : List Action :=
  openBook ++ proposed 1#128 "pause" .superadmin (votingMember true) ++ .advance 9 :: .commit 9 ::
    proposed 2#128 "lift" .superadmin (votingMember false) ++ .advance 9 :: .commit 9 ::
    .start 0 (.trade seededRep (smallBuy 1000000 3) buyer) :: List.replicate 7 (.advance 0)

theorem liftedActions_unfrozen :
    ∃ t receipt store,
      Accepts (run World.step (World.init seededConfig) liftedActions) 0 t receipt store ∧
      ¬VotingFrozen (run World.step (World.init seededConfig) liftedActions).config
        t.cmd.market := by
  have hout : outcomeAt (run World.step (World.init seededConfig) liftedActions) 0 =
      some (.ready, false, 10000, 1000000) := by decide +kernel
  obtain ⟨t, receipt, store, haccepts, -, -⟩ := accepts_of_outcomeAt hout
  exact ⟨t, receipt, store, haccepts, no_trade_while_frozen (by decide +kernel) liftedActions
    (by decide +kernel) haccepts⟩

/-- The trade reads the flag, the pause commits under the voting fence, and the trade
goes on. -/
def racedActions : List Action :=
  openBook ++ proposed 1#128 "pause" .superadmin (votingMember true) ++ .advance 9 ::
    .start 0 (.trade seededRep (smallBuy 1000000 1) buyer) :: List.replicate 6 (.advance 0) ++
    [.commit 9, .advance 0]

/-- A trade that commits after the voting pause of its market has committed. -/
theorem trade_while_frozen :
    ∃ t receipt store,
      Accepts (run World.step (World.init seededConfig) racedActions) 0 t receipt store ∧
      VotingFrozen (run World.step (World.init seededConfig) racedActions).config
        t.cmd.market := by
  have hout : outcomeAt (run World.step (World.init seededConfig) racedActions) 0 =
      some (.ready, false, 10000, 1000000) := by decide +kernel
  have hmarket : ((run World.step (World.init seededConfig) racedActions).tradeAt 0).map
      (fun t => t.cmd.market) = some ⟨1#128⟩ := by decide +kernel
  obtain ⟨t, receipt, store, haccepts, -, -⟩ := accepts_of_outcomeAt hout
  rw [World.tradeAt_eq_some.2 haccepts.1, Option.map_some, Option.some.injEq] at hmarket
  refine ⟨t, receipt, store, haccepts, Uuid.text 1#128, ?_, by decide +kernel⟩
  rw [hmarket]
  exact Uuid.parseStr_text _

end Opinions.Fence
