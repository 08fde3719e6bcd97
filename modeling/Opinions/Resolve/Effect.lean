import Opinions.Lib.Run
import Opinions.Resolve.Sweep

/-! What one lifecycle transaction does: nothing, a new market, or one row moved
forward with the keys and the payout written beside it. -/

namespace Opinions.Resolve

open Lib.Result Lib.Rows Domain.Integrity Domain.Market Model Store Trade

theorem toList_schedKey (m : MarketId) (name : String) :
    (schedKey m name).toList = "sched:".toList ++ (m.uuid.text ++ (':' :: name.toList)) := by
  simp [schedKey, String.toList_append, List.append_assoc]

variable {m m' : MarketId}

/-- A scheduler key is of one market and one name. -/
theorem schedKey_inj {name name' : String} (h : schedKey m name = schedKey m' name') :
    m = m' ∧ name = name' := by
  have hlist := congrArg String.toList h
  rw [toList_schedKey, toList_schedKey] at hlist
  have hlen : m.uuid.text.length = m'.uuid.text.length := by
    rw [Uuid.length_text, Uuid.length_text]
  obtain ⟨htext, hname⟩ := List.append_inj (List.append_cancel_left hlist) hlen
  exact ⟨congrArg MarketId.mk (Uuid.text_injective htext),
    String.toList_injective (List.cons.inj hname).2⟩

/-- The key could be one of the scheduler's own. -/
def isSchedulerKey (key : String) : Bool := key.toList.take 6 = "sched:".toList

theorem isSchedulerKey_schedKey (m : MarketId) (name : String) :
    isSchedulerKey (schedKey m name) = true := by
  rw [isSchedulerKey, toList_schedKey]
  rfl

theorem isSchedulerKey_sweepKey (m : MarketId) : isSchedulerKey (sweepKey m) = false := by
  rw [isSchedulerKey, sweepKey, String.toList_append, List.take_append_of_le_length (by rfl)]
  rfl

variable {s : MarketState}

theorem start_of_pass {b : Boundary} {s' : MarketState} (h : transition s b.event = .ok s') :
    s = b.start := by
  cases b <;> cases s <;> cases h <;> rfl

variable {e : MarketEvent} {cmd : AdvanceMarketCmd} {curatorOverride : Option CuratorDecision}

theorem event_of_resolving (h : transition s e = .ok .resolving) : e = .startIntegritySweep := by
  cases s <;> cases e <;> cases h
  rfl

theorem not_nonFinancial_of_resolving (h : transition .resolving e = .ok s) :
    nonFinancial e = false := by
  cases e <;> cases h <;> rfl

theorem enterResolving_spec {entered : MarketState} (h : enterResolving s = .ok entered) :
    entered = .resolving ∧ (s = .resolving ∨ s = .closed) := by
  cases s <;> cases h
  · exact ⟨rfl, Or.inr rfl⟩
  · exact ⟨rfl, Or.inl rfl⟩

theorem finalState_resolving (curatorOverride : Option CuratorDecision) (voided : Bool) :
    finalState .resolving curatorOverride voided = .ok (if voided then .voided else .paid) := by
  cases voided
  · rfl
  · rcases curatorOverride with _ | _ | _ <;> rfl

/-- Paid out, or waiting for a curator. -/
def Attended (row : LifecycleRow) : Prop :=
  rank row.state = 7 ∨ row.state = .resolving ∧ row.curatorFlaggedAt.isSome = true

structure Wrote (db : LifecycleDb) (row next : LifecycleRow) (db' : LifecycleDb) : Prop where
  found : db.find? row.id = some row
  id : next.id = row.id
  markets : db'.markets = (db.writeRow next).markets
  reports : db'.reports = db.reports
  forward : rank row.state ≤ rank next.state
  keys : ∀ k ∈ db'.commands.map Prod.fst, k ∈ db.commands.map Prod.fst ∨
    ∀ m b, k = schedKey m (Boundary.name b) → m = row.id ∧ rank b.start < rank next.state
  payouts : ∀ m ∈ db'.payouts, m ∈ db.payouts ∨ m = row.id ∧ rank next.state = 7
  review : next.state = .resolving →
    next.curatorFlaggedAt.isSome = true ∨ next.integrityDueAt.isSome = true
  attended : Attended row → Attended next

/-- What a transaction on the market `m` did. -/
inductive Effect (m : MarketId) (db db' : LifecycleDb) : Prop
  | same (markets : db'.markets = db.markets) (commands : db'.commands = db.commands)
      (payouts : db'.payouts = db.payouts) (reports : ∀ m', m' ≠ m → db'.report m' = db.report m')
  | seeded (row : LifecycleRow) (id : row.id = m) (fresh : m ∉ db.markets.map LifecycleRow.id)
      (state : rank row.state ≤ 1) (markets : db'.markets = db.markets ++ [row])
      (commands : db'.commands = db.commands) (payouts : db'.payouts = db.payouts)
      (reports : db'.reports = db.reports)
  | wrote (row next : LifecycleRow) (id : row.id = m) (wrote : Wrote db row next db')

theorem Effect.refl (m : MarketId) (db : LifecycleDb) : Effect m db db :=
  .same rfl rfl rfl fun _ _ => rfl

variable {db db' : LifecycleDb}

theorem Effect.find_of_ne (h : Effect m db db') (hne : m' ≠ m) : db'.find? m' = db.find? m' := by
  cases h with
  | same markets => rw [LifecycleDb.find?, markets, LifecycleDb.find?]
  | seeded row id _ _ markets =>
    rw [LifecycleDb.find?, markets, find_append, find_cons, if_neg (id ▸ hne.symm), find_nil,
      Option.or_none, LifecycleDb.find?]
  | wrote row next id wrote =>
    rw [LifecycleDb.find?, wrote.markets]
    exact LifecycleDb.find_writeRow_of_ne (wrote.id ▸ id ▸ hne)

theorem Effect.report_of_ne (h : Effect m db db') (hne : m' ≠ m) :
    db'.report m' = db.report m' := by
  cases h with
  | same _ _ _ reports => exact reports m' hne
  | seeded _ _ _ _ _ _ _ reports => rw [LifecycleDb.report, reports, LifecycleDb.report]
  | wrote _ _ _ wrote => rw [LifecycleDb.report, wrote.reports, LifecycleDb.report]

variable {row : LifecycleRow}

theorem Wrote.find {next : LifecycleRow} (h : Wrote db row next db') :
    db'.find? row.id = some (LifecycleDb.written next row) := by
  have hfind := LifecycleDb.find_writeRow_self db next
  rw [h.id, h.found] at hfind
  rwa [LifecycleDb.find?, h.markets]

theorem seedMarket_effect {seed : SeedRow} (h : seedMarket seed db = .ok db') :
    Effect seed.id db db' := by
  simp only [seedMarket, ok_iff] at h
  obtain ⟨_, hfresh, rfl⟩ := h
  refine .seeded _ rfl hfresh ?_ rfl rfl rfl rfl
  dsimp only
  split_ifs <;> decide

/-- An advance replays, or moves its market along the edge and records its key. -/
theorem advanceMarket_spec {r : AdvanceReceipt} (h : advanceMarket cmd db = .ok (r, db')) :
    nonFinancial cmd.event = true ∧
      (cmd.idempotencyKey ∈ db.commands.map Prod.fst ∧ db' = db ∨
        cmd.idempotencyKey ∉ db.commands.map Prod.fst ∧ ∃ row stop, db.find? cmd.market = some row ∧
          transition row.state cmd.event = .ok stop ∧
          db' = { db.writeRow { row with state := stop } with
            commands := db.commands ++
              [(cmd.idempotencyKey, ⟨cmd.market, cmd.event, stop⟩)] }) := by
  simp only [advanceMarket, Bool.not_eq_false, ok_iff] at h
  obtain ⟨_, hevent, h⟩ := h
  refine ⟨hevent, ?_⟩
  split at h
  · rename_i recorded hrecorded
    cases h
    exact Or.inl ⟨find_isSome.1 (by rw [hrecorded]; rfl), rfl⟩
  · simp only [LifecycleDb.market_eq_ok, ok_iff] at h
    obtain ⟨row, hrow, stop, hstop, recorded, hrec, -, rfl⟩ := h
    obtain ⟨hfresh, rfl⟩ := LifecycleDb.recordCommand_spec hrec
    exact Or.inr ⟨hfresh, row, stop, hrow, hstop, rfl⟩

/-- An advance that does not start the integrity sweep, under a key that names no
boundary but its own. -/
theorem advanceMarket_effect {r : AdvanceReceipt} (hevent : cmd.event ≠ .startIntegritySweep)
    (hkey : ∀ m b, cmd.idempotencyKey = schedKey m (Boundary.name b) →
      m = cmd.market ∧ cmd.event = b.event) (h : advanceMarket cmd db = .ok (r, db')) :
    Effect cmd.market db db' := by
  obtain ⟨hfin, ⟨-, rfl⟩ | ⟨-, row, stop, hrow, hstop, rfl⟩⟩ := advanceMarket_spec h
  · exact Effect.refl _ _
  · have hid := LifecycleDb.id_of_find hrow
    refine .wrote row { row with state := stop } hid
      ⟨hid ▸ hrow, rfl, rfl, rfl, (rank_lt_of_transition hstop).le, ?_, fun m hm => Or.inl hm, ?_, ?_⟩
    · intro k hk
      rw [List.map_append, List.mem_append, List.map_singleton, List.mem_singleton] at hk
      refine hk.imp id fun hk m b hmb => ?_
      obtain ⟨rfl, hb⟩ := hkey m b (hk.symm.trans hmb)
      rw [hb] at hstop
      exact ⟨hid.symm, start_of_pass hstop ▸ rank_lt_of_transition hstop⟩
    · intro hres
      dsimp only at hres
      rw [hres] at hstop
      exact absurd (event_of_resolving hstop) hevent
    · rintro (hdone | ⟨hres, -⟩)
      · have := rank_lt_of_transition hstop
        have : rank stop ≤ 7 := by cases stop <;> decide
        omega
      · rw [hres] at hstop
        rw [not_nonFinancial_of_resolving hstop] at hfin
        cases hfin

variable {r : ResolveReceipt} {cfg : ResolveConfig} {facts : MarketFacts}

theorem holdForReview_effect (hfound : db.find? row.id = some row) (hclosed : row.state = .closed)
    (h : holdForReview cfg facts row .resolving db = .ok (r, db')) : Effect row.id db db' := by
  simp only [holdForReview, ok_iff] at h
  obtain ⟨delay, -, held, hheld, -, rfl⟩ := h
  obtain ⟨-, rfl⟩ := LifecycleDb.recordCommand_spec hheld
  refine .wrote row
    { row with state := .resolving, integrityDueAt := some (facts.now + seconds delay) } rfl
    ⟨hfound, rfl, rfl, rfl, ?_, ?_, fun m hm => Or.inl hm, fun _ => Or.inr rfl, ?_⟩
  · rw [hclosed]
    exact Nat.le_succ 4
  · intro k hk
    rw [List.map_append, List.mem_append, List.map_singleton, List.mem_singleton] at hk
    refine hk.imp id fun hk m b hmb => ?_
    have hsched := isSchedulerKey_schedKey m b.name
    rw [← hmb, hk, isSchedulerKey_sweepKey] at hsched
    cases hsched
  · rintro (hdone | ⟨hres, -⟩)
    · rw [hclosed] at hdone
      cases hdone
    · rw [hclosed] at hres
      cases hres

theorem payOut_effect (hfound : db.find? row.id = some row)
    (hstate : row.state = .resolving ∨ row.state = .closed)
    (h : payOut cfg facts row .resolving curatorOverride db = .ok (r, db')) :
    Effect row.id db db' := by
  simp only [payOut, finalState_resolving, Except.ok.injEq, ok_iff] at h
  obtain ⟨⟨voided, bps⟩, -, _, -, state, rfl, -, rfl⟩ := h
  have hrank : rank (if voided then MarketState.voided else MarketState.paid) = 7 := by
    cases voided <;> rfl
  refine .wrote row
    { row with
      state := if voided then .voided else .paid
      curatorFlaggedAt := if curatorOverride.isSome then none else row.curatorFlaggedAt } rfl
    ⟨hfound, rfl, rfl, rfl, ?_, fun k hk => Or.inl hk, ?_, ?_, fun _ => Or.inl hrank⟩
  · dsimp only
    rw [hrank]
    rcases hstate with hs | hs <;> rw [hs] <;> decide
  · intro m hm
    rw [mem_concat] at hm
    exact hm.imp_right fun hm => ⟨hm, hrank⟩
  · intro hres
    dsimp only at hres
    rw [hres] at hrank
    cases hrank

theorem resolveMarket_effect (h : resolveMarket cfg facts m curatorOverride db = .ok (r, db')) :
    Effect m db db' := by
  unfold resolveMarket at h
  split_ifs at h
  · simp only [ok_iff] at h
    obtain ⟨_, -, -, rfl⟩ := h
    exact Effect.refl _ _
  · simp only [bind_eq_ok, LifecycleDb.market_eq_ok] at h
    obtain ⟨row, hrow, _, -, _, -, entered, hentered, escrow, -, h⟩ := h
    obtain ⟨rfl, hstate⟩ := enterResolving_spec hentered
    obtain rfl := LifecycleDb.id_of_find hrow
    split_ifs at h with hhold
    · exact holdForReview_effect hrow hhold.1 h
    · exact payOut_effect hrow hstate h

theorem writeIntegrityReport_effect {v : Verdict}
    (h : writeIntegrityReport cfg facts m db = .ok (v, db')) :
    Effect m db db' := by
  simp only [writeIntegrityReport, bind_eq_ok] at h
  obtain ⟨row, -, _, -, h⟩ := h
  split at h
  · cases h
    exact Effect.refl _ _
  · cases h
    refine .same rfl rfl rfl fun m' hne => ?_
    rw [LifecycleDb.report, find_append, find_cons, if_neg hne.symm, find_nil, Option.or_none,
      LifecycleDb.report]

theorem flagCurator_effect {won : Bool} (h : flagCurator facts m db = .ok (won, db')) :
    Effect m db db' := by
  simp only [flagCurator, bind_eq_ok, LifecycleDb.market_eq_ok] at h
  obtain ⟨row, hrow, h⟩ := h
  obtain rfl := LifecycleDb.id_of_find hrow
  split_ifs at h with hclosed hres
  · simp only [ok_iff] at h
    obtain ⟨stop, hstop, recorded, hrec, -, rfl⟩ := h
    obtain ⟨-, rfl⟩ := LifecycleDb.recordCommand_spec hrec
    cases hstop
    refine .wrote row (flagged facts .resolving row) rfl ⟨hrow, rfl, rfl, rfl, ?_, ?_,
      fun m hm => Or.inl hm, fun _ => Or.inl rfl, fun _ => Or.inr ⟨rfl, rfl⟩⟩
    · rw [hclosed]
      exact Nat.le_succ 4
    · intro k hk
      rw [List.map_append, List.mem_append, List.map_singleton, List.mem_singleton] at hk
      refine hk.imp id fun hk m b hmb => ?_
      -- no boundary is called `curator`
      have hname := (schedKey_inj (hk.symm.trans hmb)).2
      cases b <;> simp [Boundary.name] at hname
  · cases h
    exact Effect.refl _ _
  · cases h
    exact .wrote row (flagged facts row.state row) rfl ⟨hrow, rfl, rfl, rfl, le_rfl,
      fun k hk => Or.inl hk, fun m hm => Or.inl hm, fun _ => Or.inl rfl,
      fun _ => Or.inr ⟨not_not.1 hres, rfl⟩⟩

def Command.market : Command → MarketId
  | .seed s => s.id
  | .advance cmd => cmd.market
  | .pass m _ | .resolve _ m _ | .report _ m | .flag _ m => m

/-- No administrator starts an integrity sweep by hand or takes a scheduler key. -/
def Command.Allowed : Command → Prop
  | .advance cmd =>
    cmd.event ≠ .startIntegritySweep ∧ isSchedulerKey cmd.idempotencyKey = false
  | _ => True

theorem LifecycleDb.step_effect {c : Command} (hc : c.Allowed) (h : db.step cfg c = .ok db') :
    Effect c.market db db' := by
  cases c with
  | seed => exact seedMarket_effect h
  | advance =>
    refine advanceMarket_effect hc.1 (fun m b hkey => ?_) (map_snd_eq_ok.1 h).choose_spec
    have hsched := hc.2
    rw [hkey, isSchedulerKey_schedKey] at hsched
    cases hsched
  | pass m b =>
    refine advanceMarket_effect ?_ (fun m' b' hkey => ?_) (map_snd_eq_ok.1 h).choose_spec
    · cases b <;> simp [Boundary.event]
    · obtain ⟨rfl, hname⟩ := schedKey_inj hkey
      refine ⟨rfl, ?_⟩
      cases b <;> cases b' <;> first | rfl | simp [Boundary.name] at hname
  | resolve => exact resolveMarket_effect (map_snd_eq_ok.1 h).choose_spec
  | report => exact writeIntegrityReport_effect (map_snd_eq_ok.1 h).choose_spec
  | flag => exact flagCurator_effect (map_snd_eq_ok.1 h).choose_spec

end Opinions.Resolve
