import Opinions.Fence.Machine

/-! What one action of the world does, and what follows for every run: fences never
conflict, a transaction past its fence point holds its fences, and the book stays
backed. -/

namespace Opinions.Fence

open Lib.Result Lib.Rows Lib.Run Lib.Locks Config Model Trade Vote Store

inductive Moved (w : World) : Action → World → Prop
  | start (i : Nat) (request : Request) (hnew : w.session i = none) :
      Moved w (.start i request) (w.put i (request.session w.config))
  | advanceTrade (i : Nat) (t : TradeSession) (locks : Locks) (t' : TradeSession)
      (hs : w.session i = some (.trade t))
      (h : t.advance i w.config w.locks = .ok (locks, t')) :
      Moved w (.advance i) ({ w with locks := locks }.put i (.trade t'))
  | advanceVote (i : Nat) (v : VoteSession) (locks : Locks) (v' : VoteSession)
      (hs : w.session i = some (.vote v))
      (h : v.advance i w.config w.locks = .ok (locks, v')) :
      Moved w (.advance i) ({ w with locks := locks }.put i (.vote v'))
  | advanceWrite (i : Nat) (x : WriteSession) (locks : Locks)
      (hs : w.session i = some (.write x)) (h : x.advance i w.config w.locks = .ok locks) :
      Moved w (.advance i) { w with locks := locks }
  | commitTrade (i : Nat) (t : TradeSession) (receipt : TradeReceipt) (store : Store)
      (hs : w.session i = some (.trade t)) (hready : t.pc = .ready)
      (h : placeTrade t.rep t.facts t.cmd w.store = .ok (receipt, store)) :
      Moved w (.commit i) ({ w with store := store }.finish i)
  | commitVote (i : Nat) (v : VoteSession) (receipt : VoteReceipt) (store : Store)
      (votes : VoteDb) (hs : w.session i = some (.vote v)) (hready : v.pc = .ready)
      (h : castVote v.cfg v.facts v.cmd (w.store, w.votes) = .ok (receipt, store, votes)) :
      Moved w (.commit i) ({ w with store := store, votes := votes }.finish i)
  | commitWrite (i : Nat) (x : WriteSession) (config : ConfigDb)
      (hs : w.session i = some (.write x)) (hfences : x.missing i w.config w.locks = [])
      (h : w.config.step x.now w.times x.cmd = .ok config) :
      Moved w (.commit i) ({ w with config := config }.finish i)
  | abort (i : Nat) : Moved w (.abort i) (w.finish i)
  | book (cmd : Command) (store : Store) (h : w.store.step cmd = .ok store) :
      Moved w (.book cmd) { w with store := store }

variable {w w' : World} {a : Action}

theorem World.step_moved (h : w.step a = .ok w') : Moved w a w' := by
  cases a with
  | start i request =>
    simp only [World.step, ok_iff] at h
    obtain ⟨_, hnew, rfl⟩ := h
    exact .start i request (by simpa using hnew)
  | advance i =>
    simp only [World.step, ok_iff] at h
    obtain ⟨s, hs, h⟩ := h
    cases s with
    | trade t =>
      simp only [World.advance, ok_iff] at h
      obtain ⟨⟨locks, t'⟩, h, rfl⟩ := h
      exact .advanceTrade i t locks t' hs h
    | vote v =>
      simp only [World.advance, ok_iff] at h
      obtain ⟨⟨locks, v'⟩, h, rfl⟩ := h
      exact .advanceVote i v locks v' hs h
    | write x =>
      simp only [World.advance, ok_iff] at h
      obtain ⟨locks, h, rfl⟩ := h
      exact .advanceWrite i x locks hs h
  | commit i =>
    simp only [World.step, ok_iff] at h
    obtain ⟨s, hs, h⟩ := h
    cases s with
    | trade t =>
      simp only [World.commit, ok_iff] at h
      obtain ⟨_, hready, ⟨receipt, store⟩, h, rfl⟩ := h
      exact .commitTrade i t receipt store hs (not_not.1 hready) h
    | vote v =>
      simp only [World.commit, ok_iff] at h
      obtain ⟨_, hready, ⟨receipt, store, votes⟩, h, rfl⟩ := h
      exact .commitVote i v receipt store votes hs (not_not.1 hready) h
    | write x =>
      simp only [World.commit, ok_iff] at h
      obtain ⟨_, hfences, config, h, rfl⟩ := h
      exact .commitWrite i x config hs (not_not.1 hfences) h
  | abort i =>
    cases h
    exact .abort i
  | book cmd =>
    cases cmd with
    | trade => exact absurd h (by simp [World.step, World.book])
    | seed | advance | post =>
      simp only [World.step, World.book, ok_iff] at h
      obtain ⟨store, h, rfl⟩ := h
      exact .book _ store h

namespace World

theorem session_put (w : World) (i j : Nat) (s : Session) :
    (w.put i s).session j = if j = i then some s else w.session j := by
  rw [session, put, find_upsert, apply_ite (Option.map _)]
  rfl

theorem session_finish (w : World) (i j : Nat) :
    (w.finish i).session j = if j = i then none else w.session j := by
  rw [session, finish, find_filter_ne, apply_ite (Option.map _)]
  rfl

end World

variable {i : Nat} {t : TradeSession}

theorem World.tradeAt_eq_some : w.tradeAt i = some t ↔ w.session i = some (.trade t) := by
  rw [World.tradeAt, Option.bind_eq_some_iff]
  constructor
  · rintro ⟨s, hs, ht⟩
    cases s <;> simp_all [Session.trade?]
  · exact fun h => ⟨_, h, rfl⟩

theorem World.writerAt_eq_some {x : WriteSession} :
    w.writerAt i = some x ↔ w.session i = some (.write x) := by
  rw [World.writerAt, Option.bind_eq_some_iff]
  constructor
  · rintro ⟨s, hs, hx⟩
    cases s <;> simp_all [Session.write?]
  · exact fun h => ⟨_, h, rfl⟩

theorem World.mem_trades (h : w.session i = some (.trade t)) : t ∈ w.trades := by
  obtain ⟨p, hp, hpt⟩ := Option.map_eq_some_iff.1 h
  exact List.mem_filterMap.2 ⟨p, mem_of_find hp, by rw [hpt]; rfl⟩

/-- The rule for facts about sessions in flight and the committed config: they hold
when a session opens, its own statements keep them, and so do the commits of config
writers. -/
theorem Moved.session_tracked {Q : ConfigDb → Session → Prop} (h : Moved w a w')
    (hQ : ∀ i s, w.session i = some s → Q w.config s)
    (hopen : ∀ request : Request, Q w.config (request.session w.config))
    (htrade : ∀ i t locks t', a = .advance i → w.session i = some (.trade t) →
      t.advance i w.config w.locks = .ok (locks, t') → Q w.config (.trade t'))
    (hvote : ∀ i v locks v', a = .advance i → w.session i = some (.vote v) →
      v.advance i w.config w.locks = .ok (locks, v') → Q w.config (.vote v'))
    (hcommit : ∀ i x config, a = .commit i → w.session i = some (.write x) →
      x.missing i w.config w.locks = [] →
      ConfigEffect x.now w.times w.config config (x.cmd.object x.now w.config) →
      ∀ j s, w.session j = some s → Q config s) :
    ∀ i s, w'.session i = some s → Q w'.config s := by
  have hput : ∀ (u : World) (i : Nat) (s : Session), u.sessions = w.sessions →
      u.config = w.config → Q w.config s →
      ∀ j s', (u.put i s).session j = some s' → Q u.config s' := by
    intro u i s hsame hconfig hs j s' hj
    rw [World.session_put, World.session, hsame] at hj
    rw [hconfig]
    split at hj
    · exact Option.some.inj hj ▸ hs
    · exact hQ j s' hj
  have hfinish : ∀ (u : World) (i : Nat), u.sessions = w.sessions →
      (∀ j s, w.session j = some s → Q u.config s) →
      ∀ j s, (u.finish i).session j = some s → Q u.config s := by
    intro u i hsame hkeep j s hj
    rw [World.session_finish, Option.ite_none_left_eq_some, World.session, hsame] at hj
    exact hkeep j s hj.2
  cases h with
  | start i request => exact hput w i _ rfl rfl (hopen request)
  | advanceTrade i t locks t' hs h =>
    exact hput { w with locks := locks } i _ rfl rfl (htrade i t locks t' rfl hs h)
  | advanceVote i v locks v' hs h =>
    exact hput { w with locks := locks } i _ rfl rfl (hvote i v locks v' rfl hs h)
  | advanceWrite | book => exact hQ
  | commitTrade i t receipt store =>
    exact hfinish { w with store := store } i rfl hQ
  | commitVote i v receipt store votes =>
    exact hfinish { w with store := store, votes := votes } i rfl hQ
  | commitWrite i x config hs hfences h =>
    exact hfinish { w with config := config } i rfl
      (hcommit i x config rfl hs hfences (ConfigDb.step_effect h))
  | abort i => exact hfinish w i rfl hQ

/-- The rule for facts about the trades in flight alone. -/
theorem Moved.tracked {Q : ConfigDb → TradeSession → Prop} (h : Moved w a w')
    (hQ : ∀ i t, w.session i = some (.trade t) → Q w.config t)
    (hopen : ∀ rep cmd facts, Q w.config ⟨rep, cmd, facts, .begun, w.config⟩)
    (hadvance : ∀ i t locks t', a = .advance i → w.session i = some (.trade t) →
      t.advance i w.config w.locks = .ok (locks, t') → Q w.config t → Q w.config t')
    (hcommit : ∀ i x config, a = .commit i → w.session i = some (.write x) →
      ConfigEffect x.now w.times w.config config (x.cmd.object x.now w.config) →
      ∀ j t, w.session j = some (.trade t) → Q w.config t → Q config t) :
    ∀ i t, w'.session i = some (.trade t) → Q w'.config t := by
  have hall := h.session_tracked (Q := fun db s => ∀ t, s = .trade t → Q db t)
    (fun i s hs t ht => hQ i t (ht ▸ hs))
    (fun request t ht => by
      cases request <;> simp only [Request.session, reduceCtorEq, Session.trade.injEq] at ht
      exact ht ▸ hopen _ _ _)
    (fun i t locks t' ha hs h u hu =>
      Session.trade.inj hu ▸ hadvance i t locks t' ha hs h (hQ i t hs))
    (fun i v locks v' ha hs h u hu => absurd hu (by simp))
    (fun i x config ha hs _ heffect j s hj t ht =>
      hcommit i x config ha hs heffect j t (ht ▸ hj) (hQ j t (ht ▸ hj)))
  exact fun i t hs => hall i _ hs t rfl

def TradePc.rank : TradePc → Nat
  | .begun => 0
  | .quoted => 1
  | .globalHeld => 2
  | .fenced => 3
  | .tradingRead => 4
  | .marketRead => 5
  | .votingRead => 6
  | .ready => 7

def TradeSession.Holds (i : Nat) (locks : Locks) (t : TradeSession) : Prop :=
  (2 ≤ t.pc.rank → ⟨i, tradingGlobalFence, .shared⟩ ∈ locks) ∧
    (3 ≤ t.pc.rank → ⟨i, tradingMarketFence t.cmd.market, .shared⟩ ∈ locks)

def VoteSession.Holds (i : Nat) (locks : Locks) (v : VoteSession) : Prop :=
  v.pc ≠ .begun → ⟨i, votingMarketFence v.cmd.market, .shared⟩ ∈ locks

/-- A statement leaves the table or adds one hold that is compatible. -/
def Grown (locks locks' : Locks) : Prop := locks' = locks ∨ ∃ h, acquire locks h = some locks'

variable {locks locks' : Locks}

theorem Grown.subset (h : Grown locks locks') : locks ⊆ locks' := by
  rcases h with rfl | ⟨hold, h⟩
  · exact List.Subset.refl _
  · obtain ⟨-, rfl⟩ := acquire_eq_some.1 h
    exact List.subset_append_left _ _

theorem Grown.safe (h : Grown locks locks') (hs : Safe locks) : Safe locks' := by
  rcases h with rfl | ⟨hold, h⟩
  · exact hs
  · exact hs.acquire h

theorem share_eq_ok {f : String} (h : share locks i f = .ok locks') :
    Grown locks locks' ∧ ⟨i, f, .shared⟩ ∈ locks' := by
  have hacq := okOr_eq_ok.1 h
  refine ⟨.inr ⟨_, hacq⟩, ?_⟩
  obtain ⟨-, rfl⟩ := acquire_eq_some.1 hacq
  exact List.mem_append_right _ List.mem_cons_self

variable {config : ConfigDb}

/-- One statement of a trade goes to the next point with the same command and
policy, and keeps and takes the fences of that point. -/
theorem TradeSession.advance_spec {t' : TradeSession}
    (h : t.advance i config locks = .ok (locks', t')) :
    t'.cmd = t.cmd ∧ t'.rep = t.rep ∧ t'.facts.tier = t.facts.tier ∧
      t'.pc.rank = t.pc.rank + 1 ∧ Grown locks locks' ∧
      (t.Holds i locks → t'.Holds i locks') := by
  cases hpc : t.pc <;> simp only [TradeSession.advance, hpc] at h
  case quoted =>
    simp only [ok_iff] at h
    obtain ⟨_, hshare, rfl, rfl⟩ := h
    obtain ⟨hgrown, hmem⟩ := share_eq_ok hshare
    have hbefore : ¬3 ≤ TradePc.globalHeld.rank := by decide
    exact ⟨rfl, rfl, rfl, rfl, hgrown, fun _ => ⟨fun _ => hmem, fun hlt => absurd hlt hbefore⟩⟩
  case globalHeld =>
    simp only [ok_iff] at h
    obtain ⟨_, hshare, rfl, rfl⟩ := h
    obtain ⟨hgrown, hmem⟩ := share_eq_ok hshare
    refine ⟨rfl, rfl, rfl, rfl, hgrown, fun hold => ⟨fun _ => ?_, fun _ => hmem⟩⟩
    exact hgrown.subset (hold.1 (by rw [hpc]; decide))
  case ready => cases h
  case begun =>
    cases h
    have hbefore : ¬2 ≤ TradePc.quoted.rank ∧ ¬3 ≤ TradePc.quoted.rank := by decide
    exact ⟨rfl, rfl, rfl, rfl, .inl rfl,
      fun _ => ⟨fun hlt => absurd hlt hbefore.1, fun hlt => absurd hlt hbefore.2⟩⟩
  all_goals
    cases h
    refine ⟨rfl, rfl, rfl, rfl, .inl rfl, fun hold => ⟨fun _ => ?_, fun _ => ?_⟩⟩
    · exact hold.1 (by rw [hpc]; decide)
    · exact hold.2 (by rw [hpc]; decide)

theorem VoteSession.advance_spec {v v' : VoteSession}
    (h : v.advance i config locks = .ok (locks', v')) :
    v'.cmd = v.cmd ∧ Grown locks locks' ∧ (v.Holds i locks → v'.Holds i locks') := by
  cases hpc : v.pc <;> simp only [VoteSession.advance, hpc] at h
  case begun =>
    simp only [ok_iff] at h
    obtain ⟨_, hshare, rfl, rfl⟩ := h
    obtain ⟨hgrown, hmem⟩ := share_eq_ok hshare
    exact ⟨rfl, hgrown, fun _ _ => hmem⟩
  case fenced =>
    cases h
    exact ⟨rfl, .inl rfl, fun hold _ => hold (by rw [hpc]; decide)⟩
  case ready => cases h

theorem WriteSession.advance_spec {x : WriteSession} (h : x.advance i config locks = .ok locks') :
    Grown locks locks' := by
  simp only [WriteSession.advance] at h
  split at h
  · cases h
  · exact .inr ⟨_, okOr_eq_ok.1 h⟩

/-- What holds in every world: fences do not conflict, every transaction holds the
fences it has passed, and the book is backed. -/
structure Sound (w : World) : Prop where
  safe : Safe w.locks
  backed : w.store.Backed
  trade : ∀ i t, w.session i = some (.trade t) → t.Holds i w.locks
  vote : ∀ i v, w.session i = some (.vote v) → v.Holds i w.locks

theorem TradeSession.Holds.mono (h : t.Holds i locks)
    (hsub : ∀ hold ∈ locks, hold.owner = i → hold ∈ locks') :
    t.Holds i locks' :=
  ⟨fun hlt => hsub _ (h.1 hlt) rfl, fun hlt => hsub _ (h.2 hlt) rfl⟩

theorem VoteSession.Holds.mono {v : VoteSession} (h : v.Holds i locks)
    (hsub : ∀ hold ∈ locks, hold.owner = i → hold ∈ locks') :
    v.Holds i locks' := fun hlt => hsub _ (h hlt) rfl

theorem sound_init (config : ConfigDb) : Sound (World.init config) where
  safe := safe_nil
  backed := Store.backed_empty
  trade := fun _ _ h => absurd h (by simp [World.session, World.init])
  vote := fun _ _ h => absurd h (by simp [World.session, World.init])

theorem Sound.put (hw : Sound w) (hgrown : Grown w.locks locks) {s : Session}
    (htrade : ∀ t, s = .trade t → t.Holds i locks) (hvote : ∀ v, s = .vote v → v.Holds i locks) :
    Sound ({ w with locks := locks }.put i s) where
  safe := hgrown.safe hw.safe
  backed := hw.backed
  trade := fun j t h => by
    rw [World.session_put] at h
    split at h
    · rename_i hj
      subst hj
      exact htrade t (Option.some.inj h)
    · exact (hw.trade j t h).mono fun hold hmem _ => hgrown.subset hmem
  vote := fun j v h => by
    rw [World.session_put] at h
    split at h
    · rename_i hj
      subst hj
      exact hvote v (Option.some.inj h)
    · exact (hw.vote j v h).mono fun hold hmem _ => hgrown.subset hmem

theorem Sound.finish (hw : Sound w) (w' : World) (hlocks : w'.locks = w.locks)
    (hsessions : w'.sessions = w.sessions) (hbacked : w'.store.Backed) (i : Nat) :
    Sound (w'.finish i) where
  safe := by
    have hsafe : Safe w'.locks := hlocks ▸ hw.safe
    exact hsafe.release i
  backed := hbacked
  trade := fun j t h => by
    rw [World.session_finish] at h
    split at h
    · cases h
    · rename_i hj
      rw [World.session, hsessions] at h
      refine (hw.trade j t h).mono fun hold hmem howner => mem_release.2 ⟨hlocks ▸ hmem, ?_⟩
      exact howner ▸ hj
  vote := fun j v h => by
    rw [World.session_finish] at h
    split at h
    · cases h
    · rename_i hj
      rw [World.session, hsessions] at h
      refine (hw.vote j v h).mono fun hold hmem howner => mem_release.2 ⟨hlocks ▸ hmem, ?_⟩
      exact howner ▸ hj

theorem backed_of_castVote {cfg : VoteIntegrityConfig} {facts : VoteFacts} {cmd : CastVoteCmd}
    {db db' : Store × VoteDb} {receipt : VoteReceipt} (hs : db.1.Backed)
    (h : castVote cfg facts cmd db = .ok (receipt, db')) : db'.1.Backed := by
  rcases castVote_cases h with ⟨-, rfl⟩ | ⟨-, ⟨r⟩⟩
  · exact hs
  · rw [r.result]
    exact hs.frame (Frame.convertThenCollect (not_isEscrow_ingress cmd.user) r.converted) rfl rfl

theorem Sound.moved (hw : Sound w) (h : Moved w a w') : Sound w' := by
  cases h with
  | start i request =>
    refine hw.put (.inl rfl) ?_ ?_
    · rintro t ht
      cases request <;> simp only [Request.session, reduceCtorEq, Session.trade.injEq] at ht
      subst ht
      exact ⟨fun hlt => absurd hlt (by simp [TradePc.rank]),
        fun hlt => absurd hlt (by simp [TradePc.rank])⟩
    · rintro v hv
      cases request <;> simp only [Request.session, reduceCtorEq, Session.vote.injEq] at hv
      subst hv
      exact fun hne => absurd rfl hne
  | advanceTrade i t locks t' hs h =>
    obtain ⟨-, -, -, -, hgrown, hholds⟩ := t.advance_spec h
    refine hw.put hgrown (fun u hu => ?_) (fun v hv => absurd hv (by simp))
    obtain rfl := Session.trade.inj hu
    exact hholds (hw.trade i t hs)
  | advanceVote i v locks v' hs h =>
    obtain ⟨-, hgrown, hholds⟩ := v.advance_spec h
    refine hw.put hgrown (fun t ht => absurd ht (by simp)) (fun u hu => ?_)
    obtain rfl := Session.vote.inj hu
    exact hholds (hw.vote i v hs)
  | advanceWrite i x locks hs h =>
    have hgrown := x.advance_spec h
    exact ⟨hgrown.safe hw.safe, hw.backed,
      fun j t ht => (hw.trade j t ht).mono fun hold hmem _ => hgrown.subset hmem,
      fun j v hv => (hw.vote j v hv).mono fun hold hmem _ => hgrown.subset hmem⟩
  | commitTrade i t receipt store hs hready h =>
    exact hw.finish { w with store := store } rfl rfl (hw.backed.placeTrade h) i
  | commitVote i v receipt store votes hs hready h =>
    exact hw.finish { w with store := store, votes := votes } rfl rfl
      (backed_of_castVote hw.backed h) i
  | commitWrite i x config =>
    exact hw.finish { w with config := config } rfl rfl hw.backed i
  | abort i => exact hw.finish w rfl rfl hw.backed i
  | book cmd store h => exact ⟨hw.safe, hw.backed.step h, hw.trade, hw.vote⟩

theorem sound_run (config : ConfigDb) (actions : List Action) :
    Sound (run World.step (World.init config) actions) :=
  run_preserves (fun _ _ _ _ hs h => hs.moved (World.step_moved h)) (sound_init config)

/-- The process's policy when no environment variable is set. -/
def defaultRep : RepConfig :=
  { positionCapMicroByTier := Vector.replicate 5 9223372036854775807
    feeDiscountBpByTier := Vector.replicate 5 0, minFeeBps := 0, discountFlipWindowSecs := 0 }

/-- A deposit, a seeded market and its opening. -/
def openBook : List Action :=
  [.book (.post .deposit "deposit" [⟨cash .external, -102000000⟩, ⟨cash .house, 2000000⟩,
      ⟨cash (.user ⟨7#128⟩), 100000000⟩] (by simp [IsEscrow, cash])),
   .book (.seed defaultRep ⟨0, 1⟩ ⟨⟨1#128⟩, "m", 1, 200, 100, 100, 2000000, "seed", false⟩),
   .book (.advance ⟨1#128⟩ .goLive)]

def buyer : TradeFacts :=
  { now := 10, lots := [], receivables := [], gate := .ok (), tier := 0, voted := true
    config := ⟨none, none, none, none, 0, none⟩, allocation := .ok () }

def smallBuy (amount version : Int) : PlaceTradeCmd :=
  { market := ⟨1#128⟩, user := ⟨7#128⟩, side := .yes, action := .buy, amountMicro := amount
    idempotencyKey := "buy", expectedConfigVersion := some version }

/-- A patch of one key, proposed by one administrator and about to be confirmed by
another under the id 9. -/
def proposed (id : Uuid) (key : String) (role : AdminRole) (member : String × Value) :
    List Action :=
  [.start 8 (.write (.createProposal id
      ⟨.admin "proposer" role, some (.obj [member]), none, "ops", key⟩) 1), .commit 8,
    .start 9 (.write (.confirmProposal ⟨.admin "confirmer" role, id⟩) 2)]

end Opinions.Fence
