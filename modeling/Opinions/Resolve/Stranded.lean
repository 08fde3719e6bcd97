import Opinions.Resolve.Effect

/-! Markets under review. A run in which no administrator starts an integrity sweep by
hand never leaves a market resolving without a flag or a due time, and a sweep at that
time pays the market out or flags it, as long as the vote decides it or the report
does. Both conditions are needed: the two ways to strand a market close the file. -/

namespace Opinions.Resolve

open Lib.Result Lib.Rows Lib.Run Domain.Integrity Domain.Market Model Store Trade

/-! ### The invariant -/

structure Inv (db : LifecycleDb) : Prop where
  ids : (db.markets.map LifecycleRow.id).Nodup
  /-- A market under review has a flag or a due time. -/
  review : ∀ m row, db.find? m = some row → row.state = .resolving →
    row.curatorFlaggedAt.isSome = true ∨ row.integrityDueAt.isSome = true
  /-- A scheduler key is taken only once its boundary is passed. -/
  keys : ∀ m b, schedKey m (Boundary.name b) ∈ db.commands.map Prod.fst →
    ∃ row, db.find? m = some row ∧ rank b.start < rank row.state
  paid : ∀ m ∈ db.payouts, ∃ row, db.find? m = some row ∧ rank row.state = 7

theorem inv_empty : Inv LifecycleDb.empty :=
  ⟨List.nodup_nil, by simp [LifecycleDb.empty, LifecycleDb.find?], by simp [LifecycleDb.empty],
    by simp [LifecycleDb.empty]⟩

variable {m' : MarketId} {db db' : LifecycleDb} {m : MarketId} {row : LifecycleRow}
  {cfg : ResolveConfig} {fuel : Nat}

section Steps

/-- A row found before is found after, as far along at least. -/
theorem Effect.forward (h : Effect m db db') (hrow : db.find? m' = some row) :
    ∃ row', db'.find? m' = some row' ∧ rank row.state ≤ rank row'.state ∧
      (Attended row → Attended row') := by
  by_cases hm : m' = m
  · subst hm
    cases h with
    | same markets =>
      exact ⟨row, by rw [LifecycleDb.find?, markets]; exact hrow, le_rfl, id⟩
    | seeded _ _ fresh =>
      exact absurd (find_isSome.1 (Option.isSome_iff_exists.2 ⟨row, hrow⟩)) fresh
    | wrote old next id wrote =>
      subst id
      obtain rfl : old = row := Option.mem_unique wrote.found hrow
      exact ⟨_, wrote.find, wrote.forward, wrote.attended⟩
  · exact ⟨row, (h.find_of_ne hm).trans hrow, le_rfl, id⟩

theorem Inv.effect (hi : Inv db) (h : Effect m db db') : Inv db' where
  ids := by
    cases h with
    | same markets => exact markets ▸ hi.ids
    | seeded row id fresh _ markets =>
      rw [markets, List.map_append]
      simpa using hi.ids.concat (id ▸ fresh)
    | wrote row next _ wrote =>
      rw [wrote.markets, LifecycleDb.writeRow, map_key_update (LifecycleDb.written_id next)]
      exact hi.ids
  review := by
    intro m' row hrow hres
    by_cases hm : m' = m
    · subst hm
      cases h with
      | same markets =>
        rw [LifecycleDb.find?, markets] at hrow
        exact hi.review m' row hrow hres
      | seeded new id fresh state markets =>
        have hnone : db.find? m' = none := by
          rwa [← Option.not_isSome_iff_eq_none, LifecycleDb.find?, find_isSome]
        rw [LifecycleDb.find?, markets, find_append] at hrow
        change (db.find? m').or _ = _ at hrow
        rw [hnone, Option.none_or, find_cons, if_pos id, Option.some.injEq] at hrow
        rw [hrow, hres] at state
        exact absurd state (by decide)
      | wrote old next id wrote =>
        subst id
        obtain rfl := Option.mem_unique wrote.find hrow
        exact wrote.review hres
    · exact hi.review m' row ((h.find_of_ne hm).symm.trans hrow) hres
  keys := by
    intro m' b hk
    have hold : schedKey m' b.name ∈ db.commands.map Prod.fst ∨
        ∃ row, db'.find? m' = some row ∧ rank b.start < rank row.state := by
      cases h with
      | same _ commands | seeded _ _ _ _ _ commands => exact Or.inl (commands ▸ hk)
      | wrote row next id wrote =>
        refine (wrote.keys _ hk).imp_right fun hnew => ?_
        obtain ⟨rfl, hlt⟩ := hnew m' b rfl
        exact ⟨_, wrote.find, hlt⟩
    rcases hold with hold | hnew
    · obtain ⟨row, hrow, hlt⟩ := hi.keys m' b hold
      obtain ⟨row', hrow', hle, -⟩ := h.forward hrow
      exact ⟨row', hrow', lt_of_lt_of_le hlt hle⟩
    · exact hnew
  paid := by
    intro m' hm'
    have hold : m' ∈ db.payouts ∨ ∃ row, db'.find? m' = some row ∧ rank row.state = 7 := by
      cases h with
      | same _ _ payouts | seeded _ _ _ _ _ _ payouts => exact Or.inl (payouts ▸ hm')
      | wrote row next id wrote =>
        refine (wrote.payouts m' hm').imp_right ?_
        rintro ⟨rfl, hrank⟩
        exact ⟨_, wrote.find, hrank⟩
    rcases hold with hold | hnew
    · obtain ⟨row, hrow, hrank⟩ := hi.paid m' hold
      obtain ⟨row', hrow', hle, -⟩ := h.forward hrow
      have hmax : rank row'.state ≤ 7 := by cases row'.state <;> decide
      exact ⟨row', hrow', by omega⟩
    · exact hnew

end Steps

theorem inv_run {cmds : List Command} (hok : ∀ c ∈ cmds, c.Allowed) (hi : Inv db) :
    Inv (run (LifecycleDb.step cfg) db cmds) :=
  run_preserves (fun c hc _ _ hi h => hi.effect (LifecycleDb.step_effect (hok c hc) h)) hi

/-! ### A cascade is a run -/

/-- The transactions a cascade of the market `m` is made of. -/
inductive Command.Scheduled (m : MarketId) : Command → Prop
  | pass (b : Boundary) : Command.Scheduled m (.pass m b)
  | resolve (facts : MarketFacts) : Command.Scheduled m (.resolve facts m none)
  | report (facts : MarketFacts) : Command.Scheduled m (.report facts m)
  | flag (facts : MarketFacts) : Command.Scheduled m (.flag facts m)

variable {c : Command}

theorem Command.Scheduled.spec (h : c.Scheduled m) : c.Allowed ∧ c.market = m := by
  cases h <;> exact ⟨trivial, rfl⟩

/-- The state after some of a market's scheduled transactions. -/
def Cascaded (cfg : ResolveConfig) (m : MarketId) (db db' : LifecycleDb) : Prop :=
  ∃ cmds : List Command, (∀ c ∈ cmds, c.Scheduled m) ∧ run (LifecycleDb.step cfg) db cmds = db'

namespace Cascaded

theorem refl (cfg : ResolveConfig) (m : MarketId) (db : LifecycleDb) : Cascaded cfg m db db :=
  ⟨[], by simp, rfl⟩

theorem cons {mid : LifecycleDb} (hc : c.Scheduled m) (hstep : db.step cfg c = .ok mid)
    (h : Cascaded cfg m mid db') : Cascaded cfg m db db' := by
  obtain ⟨cmds, hcmds, rfl⟩ := h
  refine ⟨c :: cmds, ?_, ?_⟩
  · simpa using ⟨hc, hcmds⟩
  · rw [run_cons, attempt_of_ok hstep]

theorem single (hc : c.Scheduled m) (hstep : db.step cfg c = .ok db') : Cascaded cfg m db db' :=
  cons hc hstep (refl cfg m db')

variable (h : Cascaded cfg m db db')
include h

theorem inv (hi : Inv db) : Inv db' := by
  obtain ⟨cmds, hcmds, rfl⟩ := h
  exact inv_run (fun c hc => (hcmds c hc).spec.1) hi

/-- What every transaction of the market preserves, the cascade preserves. -/
theorem preserves {P : LifecycleDb → Prop} (hP : ∀ s s', P s → Effect m s s' → P s')
    (hdb : P db) : P db' := by
  obtain ⟨cmds, hcmds, rfl⟩ := h
  refine run_preserves (fun c hc s s' hs hstep => hP s s' hs ?_) hdb
  obtain ⟨hallowed, rfl⟩ := (hcmds c hc).spec
  exact LifecycleDb.step_effect hallowed hstep

theorem find_of_ne (hne : m' ≠ m) : db'.find? m' = db.find? m' :=
  h.preserves (P := fun s => s.find? m' = db.find? m')
    (fun _ _ hs he => (he.find_of_ne hne).trans hs) rfl

theorem report_of_ne (hne : m' ≠ m) : db'.report m' = db.report m' :=
  h.preserves (P := fun s => s.report m' = db.report m')
    (fun _ _ hs he => (he.report_of_ne hne).trans hs) rfl

end Cascaded

/-- The market was paid out or waits for a curator. -/
def LifecycleDb.Attended (db : LifecycleDb) (m : MarketId) : Prop :=
  ∃ row, db.find? m = some row ∧ Resolve.Attended row

theorem Cascaded.attended (h : Cascaded cfg m db db') (ha : db.Attended m') : db'.Attended m' := by
  refine h.preserves (P := fun s => s.Attended m') (fun s s' hs he => ?_) ha
  obtain ⟨row, hrow, hdone⟩ := hs
  obtain ⟨row', hrow', -, hkept⟩ := he.forward hrow
  exact ⟨row', hrow', hkept hdone⟩

variable {r : Except AppError CascadeResult} {advanced : Nat} {b : Boundary} {d : Bool × Nat}

section Cascade

variable {facts : MarketFacts}

theorem resolveClosed_cascaded (h : resolveClosed cfg facts m advanced db = (r, db')) :
    Cascaded cfg m db db' := by
  unfold resolveClosed at h
  split at h
  · rename_i receipt resolved hresolve
    cases h
    exact .single (.resolve facts) (map_snd_eq_ok.2 ⟨receipt, hresolve⟩)
  · split at h
    · rename_i won marked hflag
      cases h
      exact .single (.flag facts) (map_snd_eq_ok.2 ⟨won, hflag⟩)
    · cases h
      exact .refl cfg m db
  · cases h
    exact .refl cfg m db

theorem sweepResolving_cascaded (h : sweepResolving cfg facts m advanced db = (r, db')) :
    Cascaded cfg m db db' := by
  unfold sweepResolving at h
  split at h
  · cases h
    exact .refl cfg m db
  all_goals
    rename_i reported hreport
    refine .cons (.report facts) (map_snd_eq_ok.2 ⟨_, hreport⟩) ?_
    split at h
  · rename_i won marked hflag
    cases h
    exact .single (.flag facts) (map_snd_eq_ok.2 ⟨won, hflag⟩)
  · cases h
    exact .refl cfg m _
  · rename_i receipt resolved hresolve
    cases h
    exact .single (.resolve facts) (map_snd_eq_ok.2 ⟨receipt, hresolve⟩)
  · cases h
    exact .refl cfg m _

theorem cascade_cascaded (h : cascade cfg facts m fuel advanced db = some (r, db')) :
    Cascaded cfg m db db' := by
  induction fuel generalizing advanced db with
  | zero => cases h
  | succ fuel ih =>
    unfold cascade at h
    split at h
    · obtain ⟨-, rfl⟩ := Prod.mk.inj (Option.some.inj h)
      exact .refl cfg m db
    · split at h
      · rename_i b _
        split at h
        · obtain ⟨-, rfl⟩ := Prod.mk.inj (Option.some.inj h)
          exact .refl cfg m db
        · rename_i receipt moved hadvance
          exact .cons (.pass b) (map_snd_eq_ok.2 ⟨receipt, hadvance⟩) (ih h)
      · split_ifs at h
        · exact resolveClosed_cascaded (Option.some.inj h)
        · exact sweepResolving_cascaded (Option.some.inj h)
        · obtain ⟨-, rfl⟩ := Prod.mk.inj (Option.some.inj h)
          exact .refl cfg m db

end Cascade

/-! ### Cascades return -/

variable {now : Instant}

theorem state_of_boundary (h : boundary now row = some b) : row.state = b.start := by
  unfold boundary at h
  split at h
  case h_4 => cases h
  all_goals
    split_ifs at h
    cases h
    assumption

theorem boundary_of_rank (h : 4 ≤ rank row.state) : boundary now row = none := by
  cases hb : boundary now row with
  | none => rfl
  | some b =>
    rw [state_of_boundary hb] at h
    cases b <;> exact absurd h (by decide)

/-- Where no key is taken early, passing a boundary moves the market. -/
theorem pass_moves {r : AdvanceReceipt} (hi : Inv db) (hrow : db.find? m = some row)
    (hb : boundary now row = some b)
    (h : advanceMarket ⟨m, b.event, schedKey m b.name⟩ db = .ok (r, db')) :
    ∃ row', db'.find? m = some row' ∧ rank row.state < rank row'.state := by
  obtain ⟨-, ⟨hkey, -⟩ | ⟨-, old, stop, hold, hstop, rfl⟩⟩ := advanceMarket_spec h
  · obtain ⟨row', hrow', hlt⟩ := hi.keys m b hkey
    obtain rfl := Option.mem_unique hrow hrow'
    rw [state_of_boundary hb] at hlt
    exact absurd hlt (lt_irrefl _)
  · obtain rfl := Option.mem_unique hrow hold
    obtain rfl := LifecycleDb.id_of_find hrow
    have hfind := LifecycleDb.find_writeRow_self db { row with state := stop }
    dsimp only at hfind
    rw [hrow] at hfind
    exact ⟨_, hfind, rank_lt_of_transition hstop⟩

/-- Five rounds of the loop are enough, wherever the market starts. -/
theorem cascade_returns (cfg : ResolveConfig) (facts : MarketFacts) (m : MarketId)
    (fuel advanced : Nat) (hi : Inv db) (hfuel : 1 ≤ fuel)
    (hrank : ∀ row, db.find? m = some row → 5 ≤ fuel + min (rank row.state) 4) :
    ∃ r db', cascade cfg facts m fuel advanced db = some (r, db') := by
  induction fuel generalizing advanced db with
  | zero => cases hfuel
  | succ fuel ih =>
    unfold cascade
    split
    · exact ⟨_, _, rfl⟩
    · rename_i row hmarket
      have hrow := LifecycleDb.market_eq_ok.1 hmarket
      split
      · rename_i b hb
        split
        · exact ⟨_, _, rfl⟩
        · rename_i receipt moved hadvance
          obtain ⟨row', hrow', hlt⟩ := pass_moves hi hrow hb hadvance
          have hstep : db.step cfg (.pass m b) = .ok moved := map_snd_eq_ok.2 ⟨receipt, hadvance⟩
          have hr := hrank row hrow
          have hlow : rank row.state < 4 := by
            by_contra hge
            rw [boundary_of_rank (by omega)] at hb
            cases hb
          have heffect := LifecycleDb.step_effect (c := .pass m b) trivial hstep
          refine ih (advanced + 1) (hi.effect heffect) (by omega) ?_
          intro row'' hrow''
          obtain rfl := Option.mem_unique hrow' hrow''
          omega
      · split_ifs
        · exact ⟨_, _, rfl⟩
        · exact ⟨_, _, rfl⟩
        · exact ⟨_, _, rfl⟩

/-! ### The sweep of a due market -/

/-- The report will flag the market; or its settlement goes through, and the vote
decides it or its open interest is below the floor. -/
def Decides (cfg : ResolveConfig) (facts : MarketFacts) (row : LifecycleRow)
    (report : Option Verdict) : Prop :=
  report.getD (verdict (sweepChecks facts.stats cfg.thresholds)) = .flag ∨
    facts.stable = true ∧ (∃ escrow, facts.escrowBalance = .ok escrow) ∧
    (facts.tally.actualYesBps.isSome = true ∧ row.minVotesToResolve ≤ facts.tally.total ∨
      facts.openInterest < cfg.oiFloor) ∧
    ∀ voided finalBps, facts.settlement voided finalBps = .ok ()

theorem decide_ok {tally : Tally} {minVotes openInterest oiFloor : Int}
    (h : tally.actualYesBps.isSome = true ∧ minVotes ≤ tally.total ∨ openInterest < oiFloor) :
    ∃ d, decide tally minVotes openInterest oiFloor = .ok d := by
  unfold decide
  split
  · split_ifs with hvotes hfloor
    · exact ⟨_, rfl⟩
    · exact ⟨_, rfl⟩
    · rcases h with ⟨-, hv⟩ | hf
      · exact absurd hv hvotes
      · exact absurd hf hfloor
  · rename_i hnone
    rw [hnone] at h
    rcases h with ⟨hv, -⟩ | hf
    · cases hv
    · exact ⟨_, if_pos hf⟩

section Due

variable {facts : MarketFacts}

theorem writeIntegrityReport_ok (cfg : ResolveConfig) (facts : MarketFacts)
    (hrow : db.find? m = some row) (hres : row.state = .resolving) :
    ∃ reported,
      writeIntegrityReport cfg facts m db = .ok
        ((db.report m).getD (verdict (sweepChecks facts.stats cfg.thresholds)), reported) ∧
      reported.markets = db.markets ∧ reported.payouts = db.payouts ∧
      reported.report m =
        some ((db.report m).getD (verdict (sweepChecks facts.stats cfg.thresholds))) := by
  unfold writeIntegrityReport
  rw [LifecycleDb.market_eq_ok.2 hrow, ok_bind, refuse_neg (not_not.2 hres), ok_bind]
  cases hreport : db.report m with
  | some => exact ⟨db, rfl, rfl, rfl, hreport⟩
  | none =>
    refine ⟨_, rfl, rfl, rfl, ?_⟩
    have hnone : find Prod.fst m db.reports = none := by
      rwa [LifecycleDb.report, Option.map_eq_none_iff] at hreport
    rw [LifecycleDb.report, find_append, hnone, Option.none_or, find_cons, if_pos rfl]
    rfl

theorem flagCurator_attended (facts : MarketFacts) (hrow : db.find? m = some row)
    (hres : row.state = .resolving) :
    ∃ won marked, flagCurator facts m db = .ok (won, marked) ∧ marked.Attended m := by
  obtain rfl := LifecycleDb.id_of_find hrow
  unfold flagCurator
  rw [LifecycleDb.market_eq_ok.2 hrow, ok_bind, hres, if_neg (by decide), if_neg (by simp)]
  refine ⟨_, _, rfl, ?_⟩
  have hfind := LifecycleDb.find_writeRow_self db (flagged facts .resolving row)
  have hid : (flagged facts .resolving row).id = row.id := rfl
  rw [hid, hrow] at hfind
  exact ⟨_, hfind, Or.inr ⟨rfl, rfl⟩⟩

variable {curatorOverride : Option CuratorDecision}

theorem payOut_attended (hrow : db.find? row.id = some row)
    (hd : finalDecision cfg facts row curatorOverride = .ok d)
    (hsettle : facts.settlement d.1 d.2 = .ok ()) :
    ∃ receipt paid, payOut cfg facts row .resolving curatorOverride db = .ok (receipt, paid) ∧
      (paid.find? row.id).map LifecycleRow.state =
        some (if d.1 then .voided else .paid) := by
  obtain ⟨voided, bps⟩ := d
  unfold payOut
  rw [hd, ok_bind]
  dsimp only at hsettle ⊢
  rw [hsettle, ok_bind, finalState_resolving, ok_bind]
  refine ⟨_, _, rfl, ?_⟩
  have hfind := LifecycleDb.find_writeRow_self db
    { row with
      state := if voided then .voided else .paid
      curatorFlaggedAt := if curatorOverride.isSome then none else row.curatorFlaggedAt }
  dsimp only at hfind
  rw [hrow] at hfind
  exact congrArg (Option.map LifecycleRow.state) hfind

theorem rank_final (voided : Bool) :
    rank (if voided then MarketState.voided else MarketState.paid) = 7 := by
  cases voided <;> rfl

theorem attended_of_state {d : Bool}
    (h : (db.find? m).map LifecycleRow.state = some (if d then .voided else .paid)) :
    db.Attended m := by
  obtain ⟨row, hrow, hstate⟩ := Option.map_eq_some_iff.1 h
  exact ⟨row, hrow, Or.inl (by rw [hstate]; exact rank_final d)⟩

theorem Inv.not_paid (hi : Inv db) (hrow : db.find? m = some row) (hres : row.state = .resolving) :
    m ∉ db.payouts := by
  intro hpaid
  obtain ⟨row', hrow', hrank⟩ := hi.paid m hpaid
  obtain rfl := Option.mem_unique hrow hrow'
  rw [hres] at hrank
  cases hrank

/-- A market under review that passes the gates goes on to its payout. -/
theorem resolveMarket_eq_payOut (hi : Inv db) (hrow : db.find? m = some row)
    (hres : row.state = .resolving) (hstable : facts.stable = true)
    (hescrow : ∃ escrow, facts.escrowBalance = .ok escrow)
    (hgate : gate row curatorOverride db = .ok ()) :
    resolveMarket cfg facts m curatorOverride db =
      payOut cfg facts row .resolving curatorOverride db := by
  obtain ⟨escrow, hescrow⟩ := hescrow
  have hentered : enterResolving row.state = .ok .resolving := by rw [hres]; rfl
  have hnot : ¬(row.state = .closed ∧ cfg.payoutHoldThresholdMicro ≤ escrow) := by
    rw [hres]
    simp
  unfold resolveMarket
  rw [if_neg (hi.not_paid hrow hres), LifecycleDb.market_eq_ok.2 hrow, ok_bind,
    refuse_neg (by rw [hstable]; simp), ok_bind, hgate, ok_bind, hentered, ok_bind, hescrow]
  exact if_neg hnot

theorem resolveMarket_of_gate (hi : Inv db) (hrow : db.find? m = some row)
    (hres : row.state = .resolving) (hstable : facts.stable = true)
    (hescrow : ∃ escrow, facts.escrowBalance = .ok escrow)
    (hgate : gate row curatorOverride db = .ok ())
    (hd : finalDecision cfg facts row curatorOverride = .ok d)
    (hsettle : facts.settlement d.1 d.2 = .ok ()) :
    ∃ receipt paid, resolveMarket cfg facts m curatorOverride db = .ok (receipt, paid) ∧
      (paid.find? m).map LifecycleRow.state = some (if d.1 then .voided else .paid) := by
  rw [resolveMarket_eq_payOut hi hrow hres hstable hescrow hgate]
  obtain rfl := LifecycleDb.id_of_find hrow
  exact payOut_attended hrow hd hsettle

theorem gate_of_pass (hrow : db.find? m = some row) (hres : row.state = .resolving)
    (hflag : row.curatorFlaggedAt = none) (hreport : db.report m = some .pass) :
    gate row none db = .ok () := by
  obtain rfl := LifecycleDb.id_of_find hrow
  rw [gate, if_pos hres, hflag, hreport]
  rfl

theorem sweepResolving_attended (advanced : Nat) (hi : Inv db) (hrow : db.find? m = some row)
    (hres : row.state = .resolving) (hflag : row.curatorFlaggedAt = none)
    (hdec : Decides cfg facts row (db.report m)) :
    (sweepResolving cfg facts m advanced db).2.Attended m := by
  obtain ⟨reported, hreport, hmarkets, -, hstored⟩ := writeIntegrityReport_ok cfg facts hrow hres
  have hinv : Inv reported := hi.effect (writeIntegrityReport_effect hreport)
  have hrow' : reported.find? m = some row := by
    rwa [LifecycleDb.find?, hmarkets]
  unfold Decides at hdec
  unfold sweepResolving
  rw [hreport]
  generalize (db.report m).getD (verdict (sweepChecks facts.stats cfg.thresholds)) = v at *
  cases v with
  | flag =>
    obtain ⟨won, marked, hmark, hattended⟩ := flagCurator_attended facts hrow' hres
    dsimp only
    rwa [hmark]
  | pass =>
    obtain ⟨hstable, hescrow, hvote, hsettle⟩ := hdec.resolve_left (by simp)
    obtain ⟨d, hd⟩ := decide_ok hvote
    obtain ⟨receipt, paid, hpaid, hstate⟩ :=
      resolveMarket_of_gate hinv hrow' hres hstable hescrow
        (gate_of_pass hrow' hres hflag hstored) hd (hsettle d.1 d.2)
    dsimp only
    rw [hpaid]
    exact attended_of_state hstate

/-- A cascade of a market whose review is due attends to it. -/
theorem cascade_attended (hi : Inv db) (hrow : db.find? m = some row)
    (hdue : reviewDue facts.now row = true) (hdec : Decides cfg facts row (db.report m))
    (h : cascade cfg facts m fuel advanced db = some (r, db')) : db'.Attended m := by
  have hdue' := hdue
  simp only [reviewDue, decide_eq_true_eq] at hdue'
  obtain ⟨hres, -, hflag⟩ := hdue'
  cases fuel with
  | zero => cases h
  | succ =>
    unfold cascade at h
    rw [LifecycleDb.market_eq_ok.2 hrow] at h
    dsimp only at h
    rw [boundary_of_rank (by rw [hres]; decide)] at h
    dsimp only at h
    rw [if_neg (by rw [hres]; simp), if_pos hdue] at h
    have hattended := sweepResolving_attended advanced hi hrow hres hflag hdec
    rwa [Option.some.inj h] at hattended

end Due

section Sweeps

/-- The market is attended to, or waits for its turn in the batch. -/
def Queued (cfg : ResolveConfig) (facts : MarketId → MarketFacts) (m : MarketId)
    (batch : List MarketId) (db : LifecycleDb) : Prop :=
  db.Attended m ∨ m ∈ batch ∧ ∃ row, db.find? m = some row ∧
    reviewDue (facts m).now row = true ∧ Decides cfg (facts m) row (db.report m)

/-- A batch returns, and attends to every market under review in it. -/
theorem sweepBatch_attended {facts : MarketId → MarketFacts} {batch : List MarketId}
    (progress : Nat) (report : SweepReport) (hfuel : 5 ≤ fuel) (hi : Inv db)
    (hq : Queued cfg facts m batch db) :
    ∃ progress' report' db', sweepBatch cfg fuel facts batch progress report db =
      some (progress', report', db') ∧ Inv db' ∧ db'.Attended m := by
  induction batch generalizing progress report db with
  | nil =>
    rcases hq with ha | ⟨hmem, -⟩
    · exact ⟨progress, report, db, rfl, hi, ha⟩
    · cases hmem
  | cons m' rest ih =>
    obtain ⟨r, moved, hcascade⟩ :=
      cascade_returns cfg (facts m') m' fuel 0 hi (by omega) fun row _ => by omega
    have hmoved := cascade_cascaded hcascade
    have hq' : Queued cfg facts m rest moved := by
      rcases hq with ha | ⟨hmem, row, hrow, hdue, hdec⟩
      · exact Or.inl (hmoved.attended ha)
      · by_cases hm : m = m'
        · subst hm
          exact Or.inl (cascade_attended hi hrow hdue hdec hcascade)
        · refine Or.inr ⟨(List.mem_cons.1 hmem).resolve_left hm, row, ?_, hdue, ?_⟩
          · exact (hmoved.find_of_ne hm).trans hrow
          · rwa [hmoved.report_of_ne hm]
    unfold sweepBatch
    rw [hcascade]
    cases r with
    | ok | error => exact ih _ _ (hmoved.inv hi) hq'

/-- The rounds after one that attended to the market return and leave it so. -/
theorem sweepRounds_attended {facts : Nat → RoundFacts} {rounds i : Nat} {report : SweepReport}
    (hfuel : 5 ≤ fuel) (hi : Inv db) (ha : db.Attended m) :
    ∃ report' db', sweepRounds cfg fuel facts rounds i report db = some (report', db') ∧
      db'.Attended m := by
  induction rounds generalizing i report db with
  | zero => exact ⟨report, db, rfl, ha⟩
  | succ rounds ih =>
    unfold sweepRounds
    split_ifs
    · exact ⟨report, db, rfl, ha⟩
    · have hq : Queued cfg (facts i).market m (dueMarkets (facts i).now 256 db) db := Or.inl ha
      obtain ⟨progress, report', moved, hbatch, hi', ha'⟩ :=
        sweepBatch_attended 0 report hfuel hi hq
      rw [hbatch]
      dsimp only
      split_ifs
      · exact ⟨report', moved, rfl, ha'⟩
      · exact ih hi' ha'

variable {due : Instant}

/-- A market that is due is in the batch when the batch holds all due markets. -/
theorem mem_dueMarkets {limit : Nat} (hrow : row ∈ db.markets) (hdue : dueAt now row = some due)
    (hlimit : (dueList now db).length ≤ limit) : row.id ∈ dueMarkets now limit db := by
  have hmem : (due, row.id) ∈ dueList now db :=
    List.mem_filterMap.2 ⟨row, hrow, by rw [hdue]; rfl⟩
  refine List.mem_map.2 ⟨(due, row.id), ?_, rfl⟩
  rw [List.take_of_length_le (by rw [List.length_insertionSort]; exact hlimit)]
  exact (List.mem_insertionSort _).2 hmem

theorem dueAt_of_review (hres : row.state = .resolving) (hflag : row.curatorFlaggedAt = none)
    (hdue : row.integrityDueAt = some due) (hnow : due ≤ now) : dueAt now row = some due := by
  simp [dueAt, hres, hflag, hdue, hnow]

/-- A sweep at or after the due time attends to the market. -/
theorem sweep_attended {facts : Nat → RoundFacts} (hfuel : 5 ≤ fuel) (hi : Inv db)
    (hrow : row ∈ db.markets) (hres : row.state = .resolving) (hflag : row.curatorFlaggedAt = none)
    (hdue : row.integrityDueAt = some due) (hnow : due ≤ (facts 0).now)
    (hclock : (facts 0).now ≤ ((facts 0).market row.id).now)
    (hbatch : (dueList (facts 0).now db).length ≤ 256)
    (hdec : Decides cfg ((facts 0).market row.id) row (db.report row.id)) :
    ∃ report db', sweep cfg fuel facts db = some (report, db') ∧ db'.Attended row.id := by
  have hfind : db.find? row.id = some row := find_of_mem hi.ids hrow
  have hmem := mem_dueMarkets hrow (dueAt_of_review hres hflag hdue hnow) hbatch
  have hreview : reviewDue ((facts 0).market row.id).now row = true := by
    simp only [reviewDue, decide_eq_true_eq]
    exact ⟨hres, ⟨due, hdue, hnow.trans hclock⟩, hflag⟩
  have hq : Queued cfg (facts 0).market row.id (dueMarkets (facts 0).now 256 db) db :=
    Or.inr ⟨hmem, row, hfind, hreview, hdec⟩
  obtain ⟨progress, report, moved, hfirst, hi', ha⟩ :=
    sweepBatch_attended 0 ⟨idle 0, []⟩ hfuel hi hq
  unfold sweep sweepRounds
  rw [if_neg (List.ne_nil_of_mem hmem), hfirst]
  dsimp only
  split_ifs
  · exact ⟨report, moved, rfl, ha⟩
  · exact sweepRounds_attended hfuel hi' ha

end Sweeps

def strandedConfig : ResolveConfig :=
  { oiFloor := 100, payoutHoldThresholdMicro := 1000, sweepDelaySecs := 60
    thresholds := ⟨5000000, 500000, 500000, 500000, 10, 500000⟩ }

/-- One vote, where five are needed, and a settlement that would go through. -/
def oneVote (now : Instant) : MarketFacts :=
  { now := now, stable := true, escrowBalance := .ok 5000, tally := ⟨1, 0⟩, openInterest := 3000
    stats := ⟨1, 0, 0, 4, 0, 0, 0, 0, 0⟩, settlement := fun _ _ => .ok () }

/-- The same market with five votes. -/
def fiveVotes (now : Instant) : MarketFacts := { oneVote now with tally := ⟨4, 1⟩ }

def closedRun : List Command :=
  [.seed ⟨⟨1#128⟩, true, 10, 20, 30, 5⟩, .pass ⟨1#128⟩ .opening, .pass ⟨1#128⟩ .freezing,
    .pass ⟨1#128⟩ .closing]

/-- The market closes with a large escrow and is held until the sweep. -/
def heldRun : List Command := closedRun ++ [.resolve (oneVote 30) ⟨1#128⟩ none]

/-- The market closes and an administrator starts its integrity sweep by hand. -/
def handRun : List Command := closedRun ++ [.advance ⟨⟨1#128⟩, .startIntegritySweep, "by hand"⟩]

/-- A sweep after the delay of a minute. -/
def lateSweep (facts : Instant → MarketFacts) (_ : Nat) : RoundFacts :=
  { now := 60000000030, market := fun _ => facts 60000000030 }

end Opinions.Resolve
