import Opinions.Config.Committed
import Opinions.Fence.Effect

/-! Which policy prices a trade. The process reads its economy policy once, at its
start, and the fee override before it takes its fences, so a trade is priced by the
config committed at its fence point only if the two agree there and no override
patch commits in between. -/

namespace Opinions.Fence

open Lib.Result Lib.Rows Lib.Run Domain.FeePolicy Config Model Trade Store

theorem positionKey_getD (s : Store) (user : UserId) (outcome : OutcomeId) :
    Store.positionKey ((s.position user outcome).getD (freshPosition user outcome)) =
      (user, outcome) := by
  cases h : s.position user outcome with
  | none => rfl
  | some => exact key_of_find h

variable {s : Store}

/-- Saving a position moves the owner's cost in the market by its change. -/
theorem marketPositionCost_upsert (hnd : (s.positions.map Store.positionKey).Nodup) {user : UserId}
    {outcome : OutcomeId} {p : PositionRow} (hkey : Store.positionKey p = (user, outcome)) :
    ({ s with positions := upsert Store.positionKey p s.positions } : Store).marketPositionCost
        user outcome.market =
      s.marketPositionCost user outcome.market +
        (p.cost - ((s.position user outcome).getD (freshPosition user outcome)).cost) := by
  obtain ⟨huser, houtcome⟩ := Prod.mk.inj hkey
  simp only [Store.marketPositionCost, sum_upsert hnd, hkey, Store.position]
  congr 1
  cases hf : find Store.positionKey (user, outcome) s.positions with
  | none => simp [huser, houtcome, freshPosition]
  | some r =>
    have hr : Store.positionKey r = (user, outcome) := key_of_find hf
    obtain ⟨hru, hro⟩ := Prod.mk.inj hr
    simp [huser, houtcome, hru, hro]

variable {facts : TradeFacts} {cmd : PlaceTradeCmd} {s' : Store}

theorem marketPositionCost_bookTrade {pool : PoolRow} {fee : Nat} {legs : QuotedLegs}
    (hnd : (s.positions.map Store.positionKey).Nodup) (hbuy : cmd.action = .buy)
    (h : bookTrade facts cmd s pool fee = .ok (legs, s')) :
    s'.marketPositionCost cmd.user cmd.market =
      s.marketPositionCost cmd.user cmd.market + cmd.amountMicro := by
  simp only [bookTrade, ok_iff] at h
  obtain ⟨legs', hlegs, ledger, -, _, -, rfl, rfl⟩ := h
  simp only [quoteLegs, hbuy, buyLegs, ok_iff] at hlegs
  obtain ⟨q, -, net, -, shares, -, cost, hcost, rfl⟩ := hlegs
  obtain ⟨rfl, -⟩ := Lib.Checked.tryI64_eq_some.1 hcost
  have hkey := positionKey_getD s cmd.user ⟨cmd.market, cmd.side⟩
  have hsum := marketPositionCost_upsert hnd (p := { (s.position cmd.user
    ⟨cmd.market, cmd.side⟩).getD (freshPosition cmd.user ⟨cmd.market, cmd.side⟩) with
      shares := shares
      cost := ((s.position cmd.user ⟨cmd.market, cmd.side⟩).getD
        (freshPosition cmd.user ⟨cmd.market, cmd.side⟩)).cost + cmd.amountMicro }) hkey
  refine (hsum.trans ?_)
  simp only [add_sub_cancel_left]

/-- A trade priced by `policy` and the override of `db`: the fee it pays, and for a
buy the cap it stays under. -/
def PricedBy (policy : RepConfig) (db : ConfigDb) (facts : TradeFacts) (cmd : PlaceTradeCmd)
    (s s' : Store) : Prop :=
  ∃ ledger pool feeOverride legs,
    let s := { s with ledger := ledger }
    let flip := isFlip policy facts.now cmd.action (s.lastBuyAt cmd.user ⟨cmd.market, cmd.side⟩)
    s.pool cmd.market = some pool ∧
    FeeBpsOverride.parse (db.fenceConfigValue (feeOverrideKey cmd.market)) = some feeOverride ∧
    bookTrade facts cmd s pool
      (effectiveFee { baseBps := feeOverride.baseBps pool.pool.fee, tier := facts.tier
                      discountBpByTier := policy.feeDiscountBpByTier
                      minFeeBps := policy.minFeeBps, isFlipWithinWindow := flip }) =
      .ok (legs, s') ∧
    (cmd.action = .buy → s'.marketPositionCost cmd.user cmd.market ≤
      policy.positionCapMicroByTier.get (tierIndex facts.tier))

/-- The amount a trade pays when `policy` and the override of `db` price it. -/
def committedFee (policy : RepConfig) (db : ConfigDb) (facts : TradeFacts) (cmd : PlaceTradeCmd)
    (s : Store) : Option Int := do
  let outcome : OutcomeId := ⟨cmd.market, cmd.side⟩
  let pool ← s.pool cmd.market
  let feeOverride ← FeeBpsOverride.parse (db.fenceConfigValue (feeOverrideKey cmd.market))
  let flip := isFlip policy facts.now cmd.action (s.lastBuyAt cmd.user outcome)
  let legs ← (quoteLegs cmd pool.pool outcome (s.position cmd.user outcome)
    (tradeFee policy facts.tier feeOverride pool.pool.fee flip)).toOption
  pure legs.fee

variable {policy : RepConfig} {config db : ConfigDb} {t : TradeSession} {a : Action} {w' : World}

/-- The fee on the row of a trade priced by `policy`. -/
theorem PricedBy.fee_eq (h : PricedBy policy db facts cmd s s') :
    committedFee policy db facts cmd s = s'.trades.getLast?.map TradeRow.fee := by
  obtain ⟨ledger, pool, feeOverride, _, hpool, hoverride, hbook, -⟩ := h
  simp only [bookTrade, ok_iff] at hbook
  obtain ⟨legs, hlegs, _, -, _, -, -, rfl⟩ := hbook
  have hquote : quoteLegs cmd pool.pool ⟨cmd.market, cmd.side⟩
      (s.position cmd.user ⟨cmd.market, cmd.side⟩)
      (tradeFee policy facts.tier feeOverride pool.pool.fee
        (isFlip policy facts.now cmd.action (s.lastBuyAt cmd.user ⟨cmd.market, cmd.side⟩))) =
      .ok legs := hlegs
  have hpool' : s.pool cmd.market = some pool := hpool
  simp [committedFee, hpool', hoverride, hquote, Except.toOption, tradeRow]

variable {rep : RepConfig} {tier : Nat}

theorem tradeFee_of_agrees (h : Agrees rep policy tier) (feeOverride : FeeBpsOverride)
    (poolFee : Nat) (flip : Bool) :
    tradeFee rep tier feeOverride poolFee flip = tradeFee policy tier feeOverride poolFee flip := by
  simp only [tradeFee, effectiveFee, h.minFee, h.discount]

theorem isFlip_of_agrees (h : Agrees rep policy tier) (now : Int) (action : TradeAction)
    (last : Option Int) :
    isFlip rep now action last = isFlip policy now action last := by
  simp only [isFlip, h.window]

/-- An accepted trade is priced by any policy its process agrees with and by the
override it read. -/
theorem pricedBy_of_agrees {receipt : TradeReceipt} (hs : s.Backed)
    (hagrees : Agrees rep policy facts.tier)
    (hread : facts.config.feeOverride = db.fenceConfigValue (feeOverrideKey cmd.market))
    (h : placeTrade rep facts cmd s = .ok (receipt, s')) (hnew : receipt.replayed = false) :
    PricedBy policy db facts cmd s s' := by
  rcases placeTrade_cases h with ⟨hreplayed, -⟩ | ⟨b, -⟩
  · cases hreplayed.symm.trans hnew
  · have hprice := b.priced
    simp only [priceTrade, ok_iff] at hprice
    obtain ⟨_, -, _, -, _, -, _, -, pool, hpool, feeOverride, hoverride, _, hcap, _, -, hp, hfee⟩ :=
      hprice
    obtain rfl := hp
    refine ⟨b.ledger, b.pool, feeOverride, b.legs, hpool, hread ▸ hoverride, ?_, fun hbuy => ?_⟩
    · have hbooked := b.booked
      rwa [← hfee, tradeFee_of_agrees hagrees, isFlip_of_agrees hagrees] at hbooked
    · simp only [gateCap, hbuy, ok_iff] at hcap
      obtain ⟨projected, hprojected, hle⟩ := hcap
      obtain ⟨rfl, -⟩ := Lib.Checked.tryI64_eq_some.1 hprojected
      have hnd : (({ s with ledger := b.ledger } : Store).positions.map
          Store.positionKey).Nodup := hs.positions_nodup
      have hcost := marketPositionCost_bookTrade hnd hbuy b.booked
      exact hcost.le.trans ((not_lt.1 hle).trans hagrees.cap)

/-- What a trade in flight knows of the config: before its fence point the override
it read is the committed one; from there on it is the one of the fence point, whose
policy its process agrees with. -/
structure Quoting (config : ConfigDb) (t : TradeSession) : Prop where
  before : t.pc = .quoted ∨ t.pc = .globalHeld →
    t.facts.config.feeOverride = config.fenceConfigValue (feeOverrideKey t.cmd.market)
  after : 3 ≤ t.pc.rank →
    t.facts.config.feeOverride = t.fencePoint.fenceConfigValue (feeOverrideKey t.cmd.market) ∧
      ∃ policy, committedPolicy t.fencePoint = some policy ∧ Agrees t.rep policy t.facts.tier

/-- The process's policy agrees with the committed one where the trade under `i` is
about to reach its fence point. -/
def UpToDate (w : World) (i : Nat) : Prop :=
  ∀ t ∈ w.tradeAt i, t.pc = .globalHeld →
    ∀ policy ∈ committedPolicy w.config, Agrees t.rep policy t.facts.tier

/-- What the writer under `i` commits is no override of a market with a trade between
its read of the override and its fence point. -/
def Undisturbed (w : World) (i : Nat) : Prop :=
  ∀ x ∈ w.writerAt i, ∀ object ∈ x.cmd.object x.now w.config, ∀ t ∈ w.trades,
    t.pc = .quoted ∨ t.pc = .globalHeld → feeOverrideKey t.cmd.market ∉ object.keys

instance (w : World) (i : Nat) : Decidable (UpToDate w i) := by
  unfold UpToDate
  infer_instance

instance (w : World) (i : Nat) : Decidable (Undisturbed w i) := by
  unfold Undisturbed
  infer_instance

def Current (w : World) : Action → Prop
  | .advance i => UpToDate w i
  | .commit i => Undisturbed w i
  | _ => True

instance (w : World) (a : Action) : Decidable (Current w a) :=
  match a with
  | .advance i => inferInstanceAs (Decidable (UpToDate w i))
  | .commit i => inferInstanceAs (Decidable (Undisturbed w i))
  | .start _ _ | .abort _ | .book _ => inferInstanceAs (Decidable True)

variable {i : Nat}

theorem Quoting.advance {locks locks' : Locks} {t' : TradeSession} (ht : Quoting config t)
    (h : t.advance i config locks = .ok (locks', t')) (hpolicy : t.pc = .globalHeld →
      ∃ policy, committedPolicy config = some policy ∧ Agrees t.rep policy t.facts.tier) :
    Quoting config t' := by
  cases hpc : t.pc <;> simp only [TradeSession.advance, hpc] at h
  case begun =>
    cases h
    have hbefore : ¬3 ≤ TradePc.quoted.rank := by decide
    exact ⟨fun _ => rfl, fun hlt => absurd hlt hbefore⟩
  case quoted =>
    simp only [ok_iff] at h
    obtain ⟨_, -, -, rfl⟩ := h
    have hbefore : ¬3 ≤ TradePc.globalHeld.rank := by decide
    exact ⟨fun _ => ht.before (Or.inl hpc), fun hlt => absurd hlt hbefore⟩
  case globalHeld =>
    simp only [ok_iff] at h
    obtain ⟨_, -, -, rfl⟩ := h
    exact ⟨fun hor => absurd hor (by simp), fun _ => ⟨ht.before (Or.inr hpc), hpolicy hpc⟩⟩
  case ready => cases h
  all_goals
    cases h
    exact ⟨fun hor => absurd hor (by simp), fun _ => ht.after (by rw [hpc]; decide)⟩

/-- Readable policies and quoting trades, along every run that meets the condition. -/
structure Priced (w : World) : Prop where
  sound : Sound w
  typed : (committedPolicy w.config).isSome
  quoting : ∀ i t, w.session i = some (.trade t) → Quoting w.config t

variable {w : World}

theorem typed_moved (h : Moved w a w') (hw : (committedPolicy w.config).isSome) :
    (committedPolicy w'.config).isSome := by
  cases h with
  | commitWrite i x config hs hfences h => exact (ConfigDb.step_effect h).isSome_committedPolicy hw
  | _ => exact hw

theorem Priced.moved (hw : Priced w) (hc : Current w a) (h : Moved w a w') : Priced w' where
  sound := hw.sound.moved h
  typed := typed_moved h hw.typed
  quoting := by
    refine h.tracked hw.quoting (fun rep cmd facts => ?_) ?_ ?_
    · have hbefore : ¬3 ≤ TradePc.begun.rank := by decide
      exact ⟨fun hor => absurd hor (by simp), fun hlt => absurd hlt hbefore⟩
    · rintro i t locks t' rfl hs hadvance hq
      refine hq.advance hadvance fun hpc => ?_
      obtain ⟨policy, hpolicy⟩ := Option.isSome_iff_exists.1 hw.typed
      exact ⟨policy, hpolicy, hc t (World.tradeAt_eq_some.2 hs) hpc policy hpolicy⟩
    · rintro i x config rfl hs heffect j t ht hq
      refine ⟨fun hpc => ?_, hq.after⟩
      have hsame := heffect.lookup_of_notMem fun object hobject =>
        hc x (World.writerAt_eq_some.2 hs) object hobject t (World.mem_trades ht) hpc
      exact (hq.before hpc).trans hsame.symm

theorem priced_run (htyped : (committedPolicy config).isSome) {actions : List Action}
    (hc : Along World.step Current (World.init config) actions) :
    Priced (run World.step (World.init config) actions) := by
  refine run_preserves_along (fun _ _ _ hw hc h => hw.moved hc (World.step_moved h)) ?_ hc
  exact ⟨sound_init config, htyped, fun i t h => absurd h (by simp [World.session, World.init])⟩

/-- In every run whose steps meet the condition, an accepted trade pays the effective
fee of the config committed at its fence point, and an accepted buy stays under the
cap committed there. -/
theorem trade_priced_by_committed {config : ConfigDb} (htyped : (committedPolicy config).isSome)
    (actions : List Action) (hc : Along World.step Current (World.init config) actions)
    {i : Nat} {t : TradeSession} {receipt : TradeReceipt} {store : Store}
    (hs : (run World.step (World.init config) actions).session i = some (.trade t))
    (hready : t.pc = .ready)
    (h : placeTrade t.rep t.facts t.cmd (run World.step (World.init config) actions).store =
      .ok (receipt, store))
    (hnew : receipt.replayed = false) :
    ∃ policy, committedPolicy t.fencePoint = some policy ∧
      PricedBy policy t.fencePoint t.facts t.cmd
        (run World.step (World.init config) actions).store store := by
  have hw := priced_run htyped hc
  obtain ⟨hread, policy, hpolicy, hagrees⟩ :=
    (hw.quoting i t hs).after (by rw [hready]; decide)
  exact ⟨policy, hpolicy, pricedBy_of_agrees hw.sound.backed hagrees hread h hnew⟩

/-- A process that was started with the seeded policy. -/
def seededRep : RepConfig :=
  { positionCapMicroByTier := Config.publishedPositionCaps
    feeDiscountBpByTier := #v[0, 0, 10, 20, 30], minFeeBps := 10, discountFlipWindowSecs := 3600 }

def pricedActions : List Action :=
  openBook ++ .start 0 (.trade seededRep (smallBuy 1000000 1) buyer) ::
    List.replicate 7 (.advance 0)

/-- A trade of the run's last world that is accepted and is no replay. -/
def Accepts (w : World) (i : Nat) (t : TradeSession) (receipt : TradeReceipt) (store : Store) :
    Prop :=
  w.session i = some (.trade t) ∧ t.pc = .ready ∧
    placeTrade t.rep t.facts t.cmd w.store = .ok (receipt, store) ∧ receipt.replayed = false

/-- What a ready trade would answer, as far as the checks below look at it. -/
def outcomeAt (w : World) (i : Nat) : Option (TradePc × Bool × Int × Int) := do
  let t ← w.tradeAt i
  let r ← (placeTrade t.rep t.facts t.cmd w.store).toOption
  pure (t.pc, r.1.replayed, (r.2.trades.getLast?.map TradeRow.fee).getD 0,
    r.2.marketPositionCost t.cmd.user t.cmd.market)

theorem accepts_of_outcomeAt {fee cost : Int}
    (h : outcomeAt w i = some (.ready, false, fee, cost)) :
    ∃ t receipt store, Accepts w i t receipt store ∧
      (store.trades.getLast?.map TradeRow.fee).getD 0 = fee ∧
      store.marketPositionCost t.cmd.user t.cmd.market = cost := by
  simp only [outcomeAt, Option.bind_eq_bind, Option.bind_eq_some_iff, Option.pure_def,
    Option.some.injEq, Prod.mk.injEq] at h
  obtain ⟨t, ht, ⟨receipt, store⟩, hplace, hpc, hnew, hfee, hcost⟩ := h
  refine ⟨t, receipt, store, ⟨World.tradeAt_eq_some.1 ht, hpc, ?_, hnew⟩, hfee, hcost⟩
  cases hp : placeTrade t.rep t.facts t.cmd w.store with
  | error => rw [hp] at hplace; exact absurd hplace (by simp [Except.toOption])
  | ok => rw [hp] at hplace; exact congrArg Except.ok (Option.some.inj hplace)

theorem pricedActions_priced :
    ∃ t receipt store, Accepts (run World.step (World.init seededConfig) pricedActions) 0 t
        receipt store ∧
      ∃ policy, committedPolicy t.fencePoint = some policy ∧
        PricedBy policy t.fencePoint t.facts t.cmd
          (run World.step (World.init seededConfig) pricedActions).store store := by
  have hout : outcomeAt (run World.step (World.init seededConfig) pricedActions) 0 =
      some (.ready, false, 10000, 1000000) := by decide +kernel
  obtain ⟨t, receipt, store, haccepts, -, -⟩ := accepts_of_outcomeAt hout
  obtain ⟨hs, hready, hplace, hnew⟩ := haccepts
  exact ⟨t, receipt, store, ⟨hs, hready, hplace, hnew⟩,
    trade_priced_by_committed (by decide +kernel) pricedActions (by decide +kernel) hs hready
      hplace hnew⟩

/-- A buy past the committed cap of its tier, by a process with the default policy. -/
def overCapActions : List Action :=
  openBook ++ .start 0 (.trade defaultRep (smallBuy 30000000 1) buyer) ::
    List.replicate 7 (.advance 0)

/-- The market's fee override as a patch member. -/
def overrideMember (bps : Int) : String × Value :=
  (feeOverrideKey ⟨1#128⟩, .obj [("override", .int bps)])

/-- The override goes from 100 to 50 and back while a trade, previewed before, has read
the 50 and not yet taken its fences. -/
def overrideRaceActions : List Action :=
  openBook ++ proposed 1#128 "first" .finance (overrideMember 100) ++ .commit 9 ::
    proposed 2#128 "second" .finance (overrideMember 50) ++ .commit 9 ::
    .start 0 (.trade seededRep (smallBuy 1000000 2) buyer) :: .advance 0 ::
    proposed 3#128 "third" .finance (overrideMember 100) ++ .commit 9 ::
    List.replicate 6 (.advance 0)

/-- The policy committed at a trade's fence point, what the trade is, and the fee that
policy asks for. -/
def demandAt (w : World) (i : Nat) :
    Option (RepConfig × Nat × PlaceTradeCmd × Option Int) := do
  let t ← w.tradeAt i
  let policy ← committedPolicy t.fencePoint
  pure (policy, t.facts.tier, t.cmd, committedFee policy t.fencePoint t.facts t.cmd w.store)

theorem demand_of_demandAt {fee : Option Int} (ht : w.session i = some (.trade t))
    (h : demandAt w i = some (policy, tier, cmd, fee)) :
    committedPolicy t.fencePoint = some policy ∧ t.facts.tier = tier ∧ t.cmd = cmd ∧
      committedFee policy t.fencePoint t.facts t.cmd w.store = fee := by
  simp only [demandAt, World.tradeAt_eq_some.2 ht, Option.bind_eq_bind, Option.bind_some,
    Option.bind_eq_some_iff, Option.pure_def, Option.some.injEq, Prod.mk.injEq] at h
  obtain ⟨_, hpolicy, rfl, htier, hcmd, hfee⟩ := h
  exact ⟨hpolicy, htier, hcmd, hfee⟩

/-- Two accepted trades that the committed config did not price: a buy of 30 USD under
a committed cap of 25, and a trade that pays the 50 basis points of an override that
was no longer in force. -/
theorem trade_not_priced_by_committed :
    (∃ t receipt store policy,
      Accepts (run World.step (World.init seededConfig) overCapActions) 0 t receipt store ∧
      committedPolicy t.fencePoint = some policy ∧
      ¬PricedBy policy t.fencePoint t.facts t.cmd
        (run World.step (World.init seededConfig) overCapActions).store store) ∧
    ∃ t receipt store policy,
      Accepts (run World.step (World.init seededConfig) overrideRaceActions) 0 t receipt store ∧
      committedPolicy t.fencePoint = some policy ∧
      ¬PricedBy policy t.fencePoint t.facts t.cmd
        (run World.step (World.init seededConfig) overrideRaceActions).store store := by
  constructor
  · have hout : outcomeAt (run World.step (World.init seededConfig) overCapActions) 0 =
        some (.ready, false, 300000, 30000000) := by decide +kernel
    have hdemand : demandAt (run World.step (World.init seededConfig) overCapActions) 0 =
        some (seededRep, 0, smallBuy 30000000 1, some 300000) := by decide +kernel
    obtain ⟨t, receipt, store, haccepts, -, hcost⟩ := accepts_of_outcomeAt hout
    obtain ⟨hpolicy, htier, hcmd, -⟩ := demand_of_demandAt haccepts.1 hdemand
    refine ⟨t, receipt, store, seededRep, haccepts, hpolicy, ?_⟩
    rintro ⟨_, _, _, _, -, -, -, hcap⟩
    have hle := hcap (by rw [hcmd]; rfl)
    rw [hcost, htier] at hle
    cases hle
  · have hout : outcomeAt (run World.step (World.init seededConfig) overrideRaceActions) 0 =
        some (.ready, false, 5000, 1000000) := by decide +kernel
    have hdemand : demandAt (run World.step (World.init seededConfig) overrideRaceActions) 0 =
        some (seededRep, 0, smallBuy 1000000 2, some 10000) := by decide +kernel
    obtain ⟨t, receipt, store, haccepts, hfee, -⟩ := accepts_of_outcomeAt hout
    obtain ⟨hpolicy, -, -, hcommitted⟩ := demand_of_demandAt haccepts.1 hdemand
    refine ⟨t, receipt, store, seededRep, haccepts, hpolicy, fun hpriced => ?_⟩
    have hrow := hpriced.fee_eq
    rw [hcommitted] at hrow
    rw [← hrow] at hfee
    cases hfee

end Opinions.Fence
