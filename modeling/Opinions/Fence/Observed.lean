import Opinions.Fence.Priced

/-! Whether a committed pause or override is seen. The writer stores the key and
names the fence by the text of the patch; the reader builds both from the market's
id, whose text is the canonical one. A UUID has other accepted spellings, and a fee
override has no fence at all. -/

namespace Opinions.Fence

open Lib.Result Lib.Run Config Model Trade Store

inductive Family
  | marketPaused
  | votingPaused
  | feeOverride
  deriving DecidableEq

namespace Family

def name : Family → String
  | .marketPaused => "market_paused:"
  | .votingPaused => "voting_paused:"
  | .feeOverride => "fee_bps_override:"

def key (f : Family) (m : MarketId) : String := scopedKey f.name m.uuid.text

/-- The market's fence that the reading operation takes shared: trades read market
pauses and overrides, votes read voting pauses. -/
def fence (f : Family) (m : MarketId) : String :=
  match f with
  | .marketPaused | .feeOverride => tradingMarketFence m
  | .votingPaused => votingMarketFence m

end Family

/-- A session whose next statement reads the family's value for `m`. -/
def Reads (f : Family) (m : MarketId) : Session → Prop
  | .trade t => t.cmd.market = m ∧
      (f = .marketPaused ∧ t.pc = .tradingRead ∨ f = .feeOverride ∧ t.pc = .begun)
  | .vote v => v.cmd.market = m ∧ f = .votingPaused ∧ v.pc = .fenced
  | .write _ => False

/-- The value of the family that a session has recorded. -/
def recorded (f : Family) : Session → Option Value
  | .trade t =>
    match f with
    | .marketPaused => t.facts.config.marketPaused
    | .votingPaused => t.facts.config.votingPaused
    | .feeOverride => t.facts.config.feeOverride
  | .vote v => v.facts.votingPaused
  | .write _ => none

/-- No commit of this action writes the key. -/
def Untouched (key : String) (w : World) : Action → Prop
  | .commit i => ∀ x ∈ w.writerAt i, ∀ object ∈ x.cmd.object x.now w.config, key ∉ object.keys
  | _ => True

/-- A commit of `v` by the writer `i` takes effect on `m`: the writer held the fence
whose shared side the reader takes, every later reader holds that side, and it
records `v` as long as no later patch writes the key. -/
structure TakesEffect (f : Family) (m : MarketId) (v : Value) (i : Nat) (w w' : World) : Prop where
  held : ⟨i, f.fence m, .exclusive⟩ ∈ w.locks
  observed : ∀ later, Along World.step (Untouched (f.key m)) w' later →
    ∀ j s, (run World.step w' later).session j = some s → Reads f m s →
      ⟨j, f.fence m, .shared⟩ ∈ (run World.step w' later).locks ∧
      ∃ w'' s', (run World.step w' later).step (.advance j) = .ok w'' ∧
        w''.session j = some s' ∧ recorded f s' = some v

variable {w : World}

theorem Moved.lookup_of_untouched {w' : World} {a : Action} (h : Moved w a w') {key : String}
    (hc : Untouched key w a) :
    lookup w'.config.entries key = lookup w.config.entries key := by
  cases h with
  | commitWrite i x config hs hfences h =>
    exact (ConfigDb.step_effect h).lookup_of_notMem fun object hobject =>
      hc x (World.writerAt_eq_some.2 hs) object hobject
  | _ => rfl

/-- An entry stays until a patch writes its key. -/
theorem lookup_run {key : String} {v : Value} (hv : lookup w.config.entries key = some v)
    {later : List Action} (hc : Along World.step (Untouched key) w later) :
    lookup (run World.step w later).config.entries key = some v := by
  refine run_preserves_along (P := fun u => lookup u.config.entries key = some v)
    (fun u a u' hu hcu h => ?_) hv hc
  rw [(World.step_moved h).lookup_of_untouched hcu, hu]

variable {j : Nat} {locks : Locks}

theorem World.step_advanceTrade {t t' : TradeSession} (hs : w.session j = some (.trade t))
    (h : t.advance j w.config w.locks = .ok (locks, t')) :
    w.step (.advance j) = .ok ({ w with locks := locks }.put j (.trade t')) := by
  simp only [World.step, hs, okOr_some, ok_bind, World.advance, h]
  rfl

theorem World.step_advanceVote {v v' : VoteSession} (hs : w.session j = some (.vote v))
    (h : v.advance j w.config w.locks = .ok (locks, v')) :
    w.step (.advance j) = .ok ({ w with locks := locks }.put j (.vote v')) := by
  simp only [World.step, hs, okOr_some, ok_bind, World.advance, h]
  rfl

variable {f : Family}

/-- The reading statement records the committed entry of the reader's key. -/
theorem step_reads {m : MarketId} {s : Session} (hs : w.session j = some s) (hreads : Reads f m s) :
    ∃ w' s', w.step (.advance j) = .ok w' ∧ w'.session j = some s' ∧
      recorded f s' = lookup w.config.entries (f.key m) := by
  cases s with
  | trade t =>
    obtain ⟨rfl, ⟨rfl, hpc⟩ | ⟨rfl, hpc⟩⟩ := hreads
    · have hadvance : t.advance j w.config w.locks = .ok (w.locks, { t with
          pc := .marketRead, facts.config.marketPaused :=
            w.config.fenceConfigValue (marketPausedKey t.cmd.market) }) := by
        simp only [TradeSession.advance, hpc]
      exact ⟨_, _, World.step_advanceTrade hs hadvance,
        by rw [World.session_put, if_pos rfl], rfl⟩
    · have hadvance : t.advance j w.config w.locks = .ok (w.locks, { t with
          pc := .quoted, facts.config.feeOverride :=
            w.config.fenceConfigValue (feeOverrideKey t.cmd.market) }) := by
        simp only [TradeSession.advance, hpc]
      exact ⟨_, _, World.step_advanceTrade hs hadvance,
        by rw [World.session_put, if_pos rfl], rfl⟩
  | vote v =>
    obtain ⟨rfl, rfl, hpc⟩ := hreads
    have hadvance : v.advance j w.config w.locks = .ok (w.locks, { v with
        pc := .ready, facts.votingPaused :=
          w.config.fenceConfigValue (votingPausedKey v.cmd.market) }) := by
      simp only [VoteSession.advance, hpc]
    exact ⟨_, _, World.step_advanceVote hs hadvance,
      by rw [World.session_put, if_pos rfl], rfl⟩
  | write => exact absurd hreads id

/-- A session that reads a pause holds the shared side of the family's fence. -/
theorem Sound.reads (hw : Sound w) (hf : f ≠ .feeOverride) {m : MarketId} {s : Session}
    (hs : w.session j = some s) (hreads : Reads f m s) :
    ⟨j, f.fence m, .shared⟩ ∈ w.locks := by
  cases s with
  | trade t =>
    obtain ⟨rfl, ⟨rfl, hpc⟩ | ⟨rfl, -⟩⟩ := hreads
    · exact (hw.trade j t hs).2 (by rw [hpc]; decide)
    · exact absurd rfl hf
  | vote v =>
    obtain ⟨rfl, rfl, hpc⟩ := hreads
    exact hw.vote j v hs (by rw [hpc]; decide)
  | write => exact absurd hreads id

theorem scopedFence_key (hf : f ≠ .feeOverride) (m : MarketId) :
    scopedFence (f.key m) = some (f.fence m) := by
  cases f with
  | marketPaused => exact scopedFence_marketPaused _
  | votingPaused => exact scopedFence_votingPaused _
  | feeOverride => exact absurd rfl hf

/-- A writer that may commit holds every fence of its patch. -/
theorem WriteSession.holds_of_missing {i : Nat} {config : ConfigDb} {x : WriteSession}
    (h : x.missing i config locks = []) {object : Object}
    (hobject : x.cmd.object x.now config = some object) {fence : String}
    (hfence : fence ∈ exclusiveFencesForPatch object.keys) : ⟨i, fence, .exclusive⟩ ∈ locks := by
  by_contra hnot
  have hmem : fence ∈ x.missing i config locks := by
    refine List.mem_filter.2 ⟨?_, decide_eq_true hnot⟩
    rwa [ConfigCommand.fences, hobject]
  exact absurd hmem (by simp [h])

/-- The commit of a pause under the market's canonical text takes effect, in every
run. -/
theorem canonical_pause_takes_effect (config : ConfigDb) (earlier : List Action) {i : Nat}
    {x : WriteSession} {object : Object} {f : Family} {m : MarketId} {S : List Char} {v : Value}
    {w' : World}
    (hs : (run World.step (World.init config) earlier).session i = some (.write x))
    (hobject : x.cmd.object x.now (run World.step (World.init config) earlier).config = some object)
    (hmem : (scopedKey f.name S, v) ∈ object.members)
    (hcommit : (run World.step (World.init config) earlier).step (.commit i) = .ok w')
    (hcanonical : S = m.uuid.text) (hpause : f ≠ .feeOverride) :
    TakesEffect f m v i (run World.step (World.init config) earlier) w' := by
  subst hcanonical
  have hsound := sound_run config earlier
  generalize run World.step (World.init config) earlier = w at *
  have hmoved := World.step_moved hcommit
  cases hmoved with
  | commitTrade _ _ _ _ hs' | commitVote _ _ _ _ _ hs' => cases hs.symm.trans hs'
  | commitWrite _ x' config' hs' hfences h =>
    obtain rfl := Session.write.inj (Option.mem_unique hs hs')
    have hkey : f.key m ∈ object.keys := List.mem_map_of_mem (f := Prod.fst) hmem
    refine ⟨x.holds_of_missing hfences hobject
      (mem_exclusiveFencesForPatch hkey (scopedFence_key hpause m)), ?_⟩
    intro later hlater j s hj hreads
    have heffect := ConfigDb.step_effect h
    rw [hobject] at heffect
    have hnow := lookup_run (w := ({ w with config := config' } : World).finish i)
      (heffect.lookup_of_mem hmem) hlater
    obtain ⟨w'', s', hstep, hs'', hrecorded⟩ := step_reads hj hreads
    have hsound' : Sound (run World.step (({ w with config := config' } : World).finish i) later) :=
      run_preserves (fun _ _ _ _ hu hstep => hu.moved (World.step_moved hstep))
        (hsound.moved (World.step_moved hcommit))
    exact ⟨hsound'.reads hpause hj hreads, w'', s', hstep, hs'', hrecorded.trans hnow⟩

/-- A market pause written directly under a spelling of the market's id, with its fence
taken. -/
def pausing (spelling : List Char) : List Action :=
  openBook ++ [.start 9 (.write (.setConfig ⟨.admin "ops" .ops,
    .obj [(scopedKey "market_paused:" spelling, .bool true)], none⟩) 5), .advance 9]

theorem canonical_pausing_takes_effect :
    ∃ w', (run World.step (World.init seededConfig) (pausing (Uuid.text 1#128))).step
        (.commit 9) = .ok w' ∧
      TakesEffect .marketPaused ⟨1#128⟩ (.bool true) 9
        (run World.step (World.init seededConfig) (pausing (Uuid.text 1#128))) w' := by
  have hwriter : (run World.step (World.init seededConfig) (pausing (Uuid.text 1#128))).writerAt
      9 = some ⟨.setConfig ⟨.admin "ops" .ops,
        .obj [(scopedKey "market_paused:" (Uuid.text 1#128), .bool true)], none⟩, 5⟩ := by
    decide +kernel
  have hcommit : ((run World.step (World.init seededConfig) (pausing (Uuid.text 1#128))).step
      (.commit 9)).toOption.isSome = true := by decide +kernel
  have hobject : ∀ db, ConfigCommand.object 5 db (.setConfig ⟨.admin "ops" .ops,
      .obj [(scopedKey "market_paused:" (Uuid.text 1#128), .bool true)], none⟩) =
      some ⟨[(scopedKey "market_paused:" (Uuid.text 1#128), .bool true)], by simp⟩ := by
    simp [ConfigCommand.object, Value.asObject]
  cases hstep : (run World.step (World.init seededConfig) (pausing (Uuid.text 1#128))).step
      (.commit 9) with
  | error => rw [hstep] at hcommit; exact absurd hcommit (by simp [Except.toOption])
  | ok w' =>
    exact ⟨w', rfl, canonical_pause_takes_effect seededConfig _
      (World.writerAt_eq_some.1 hwriter) (hobject _) List.mem_cons_self hstep rfl (by decide)⟩

/-- The market's id without hyphens, which the parser takes as well. -/
def plainSpelling : List Char := (Uuid.digits 1#128).map Uuid.hexChar

/-- An override of the market's fee, about to be confirmed. -/
def overriding : List Action :=
  openBook ++ proposed 1#128 "override" .finance (overrideMember 50)

/-- A committed pause without effect, since its key is spelled without hyphens: the
writer held another fence, and a trade that starts afterwards is accepted. And a
committed override whose writer held no fence. -/
theorem pause_without_effect :
    Uuid.parseStr plainSpelling = some 1#128 ∧
    lookup (run World.step (World.init seededConfig)
        (pausing plainSpelling ++ [.commit 9])).config.entries
      (scopedKey "market_paused:" plainSpelling) = some (.bool true) ∧
    ¬TakesEffect .marketPaused ⟨1#128⟩ (.bool true) 9
      (run World.step (World.init seededConfig) (pausing plainSpelling))
      (run World.step (World.init seededConfig) (pausing plainSpelling ++ [.commit 9])) ∧
    (∃ t receipt store, Accepts (run World.step (World.init seededConfig)
      (pausing plainSpelling ++ .commit 9 ::
        .start 0 (.trade seededRep (smallBuy 1000000 2) buyer) :: List.replicate 7 (.advance 0)))
      0 t receipt store) ∧
    lookup (run World.step (World.init seededConfig) (overriding ++ [.commit 9])).config.entries
      (feeOverrideKey ⟨1#128⟩) = some (overrideMember 50).2 ∧
    ¬TakesEffect .feeOverride ⟨1#128⟩ (overrideMember 50).2 9
      (run World.step (World.init seededConfig) overriding)
      (run World.step (World.init seededConfig) (overriding ++ [.commit 9])) := by
  refine ⟨by decide +kernel, by decide +kernel, fun h => ?_, ?_, by decide +kernel, fun h => ?_⟩
  · have hheld := h.held
    revert hheld
    decide +kernel
  · have hout : outcomeAt (run World.step (World.init seededConfig)
        (pausing plainSpelling ++ .commit 9 ::
          .start 0 (.trade seededRep (smallBuy 1000000 2) buyer) ::
          List.replicate 7 (.advance 0))) 0 = some (.ready, false, 10000, 1000000) := by
      decide +kernel
    obtain ⟨t, receipt, store, haccepts, -, -⟩ := accepts_of_outcomeAt hout
    exact ⟨t, receipt, store, haccepts⟩
  · have hheld := h.held
    revert hheld
    decide +kernel

end Opinions.Fence
