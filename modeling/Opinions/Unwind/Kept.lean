import Opinions.Unwind.Undone

/-! What holds in every history of a market. Until it is unwound, its transactions are
originals, the house paid its seed, and its realized profits are its realization facts; a
receivable is of a market that was unwound. -/

namespace Opinions.Unwind

open Lib.Result Lib.Rows Lib.Run Domain.Ledger Model Store Trade Credit Ops Payout

structure Kept (w : World) : Prop where
  tabled : w.book.store.Tabled
  journal : Journal w.ledger
  solvent : Solvent w.ledger
  originals : ∀ t ∈ w.ledger.txns, ∀ m, Touches m t → Original m t ∨ w.Unwound m
  seeds : ∀ row ∈ w.book.store.markets, ∃ t ∈ w.ledger.txns, IsSeed row.id t
  realized : ∀ user m, ¬w.Unwound m →
    totalOver (Payout.ofUser user m) PositionRow.realizedPnl w.book.store.positions =
      factsOf user m w.book.store.realizations
  facts : ∀ f ∈ w.book.store.realizations, f.ledgerKey ∈ w.ledger.txns.map LedgerTxn.key
  debts : ∀ r ∈ w.receivables, w.Unwound r.market ∧
    r.originReversalTxn ∈ w.ledger.txns.map LedgerTxn.key

theorem kept_empty : Kept World.empty where
  tabled := Store.backed_empty.tabled
  journal := journal_empty
  solvent := fun _ => le_rfl
  originals := by simp [World.empty, World.ledger, Book.empty, Store.empty, Ledger.empty]
  seeds := by simp [World.empty, Book.empty, Store.empty]
  realized := fun _ _ _ => rfl
  facts := by simp [World.empty, Book.empty, Store.empty]
  debts := by simp [World.empty]

variable {w w' : World} {m : MarketId} {facts : UnwindFacts} {u : MarketUnwind}

/-- Steps of the proposals and of the debts. -/
theorem Kept.relabel (h : Kept w) (hbook : w'.book = w.book)
    (hreceivables : w'.receivables = w.receivables) (hunwound : ∀ m, w'.Unwound m ↔ w.Unwound m) :
    Kept w' := by
  obtain ⟨book, unwinds, receivables, movements, lineage⟩ := w'
  obtain rfl : book = w.book := hbook
  obtain rfl : receivables = w.receivables := hreceivables
  refine ⟨h.tabled, h.journal, h.solvent, fun t ht m htouch => ?_, h.seeds, fun user m hm => ?_,
    h.facts, fun r hr => ?_⟩
  · exact (h.originals t ht m htouch).imp_right (hunwound m).2
  · exact h.realized user m fun hm' => hm ((hunwound m).2 hm')
  · exact (h.debts r hr).imp_left (hunwound r.market).2

theorem Kept.book {c : Payout.Command} {b' : Book} (h : Kept w) (hclear : Clear c)
    (hstep : w.book.step c = .ok b') : Kept { w with book := b' } := by
  have hc := step_carried h.tabled hstep
  have hp := step_posted hclear h.tabled hstep
  obtain ⟨extra, hextra, horig⟩ := hp.added
  have hkeys : ∀ key ∈ w.ledger.txns.map LedgerTxn.key,
      key ∈ b'.store.ledger.txns.map LedgerTxn.key := by
    intro key hkey
    obtain ⟨t, ht, rfl⟩ := List.mem_map.1 hkey
    exact List.mem_map_of_mem (hc.booked t ht)
  refine ⟨hc.tabled, hp.journal h.journal, hp.solvent h.solvent, fun t ht m htouch => ?_,
    fun row hrow => ?_, fun user m hm => ?_, fun f hf => ?_, fun r hr => ?_⟩
  · change t ∈ b'.store.ledger.txns at ht
    rw [hextra] at ht
    rcases List.mem_append.1 ht with ht | ht
    · exact h.originals t ht m htouch
    · exact Or.inl (horig t ht m htouch)
  · rcases hc.listed row hrow with hold | hnew
    · obtain ⟨old, hold, hid⟩ := List.mem_map.1 hold
      obtain ⟨t, ht, hseed⟩ := h.seeds old hold
      exact ⟨t, hc.booked t ht, hid ▸ hseed⟩
    · exact hnew
  · have hreal := hc.realized user m
    have hold := h.realized user m hm
    dsimp only
    omega
  · rcases hc.facts f hf with hf | hf
    · exact hkeys _ (h.facts f hf)
    · exact hf
  · exact (h.debts r hr).imp_right (hkeys _)

/-- The balance of an account of the market is what its transactions did to it. -/
theorem balanceOf_eq_taken {l : Ledger} (h : Journal l) {k : AccountKey}
    (hk : isMarketAccount m k = true) : l.balanceOf k = taken l m k := by
  rw [h.balanceOf, taken, marketLedgerTxns, sum_filter]
  congr 1
  refine List.map_congr_left fun t _ => ?_
  split_ifs with htouch
  · rfl
  · refine delta_eq_zero fun hmem => htouch ?_
    obtain ⟨e, he, rfl⟩ := List.mem_map.1 hmem
    exact List.any_eq_true.2 ⟨e, he, hk⟩

variable {row : MarketRow} {confirmer : String} {cmd : UnwindCmd} {policy : UnwindPolicy}

section Market

variable (h : Kept w) (hm : ¬w.Unwound m)
include h hm

theorem original_of_mem {t : LedgerTxn} (ht : t ∈ marketLedgerTxns w.ledger m) : Original m t := by
  obtain ⟨hbooked, htouch⟩ := mem_marketLedgerTxns.1 ht
  exact (h.originals t hbooked m htouch).resolve_right hm

/-- The house paid the seed and took nothing. -/
theorem taken_house_neg (hrow : w.book.store.market m = some row) :
    taken w.ledger m (cash .house) < 0 := by
  obtain ⟨t, ht, seed, hpos, hentries⟩ := h.seeds row (mem_of_find hrow)
  obtain rfl : row.id = m := key_of_find hrow
  have hmem : t ∈ marketLedgerTxns w.ledger row.id := by
    refine mem_marketLedgerTxns.2 ⟨ht, ⟨cash (.marketEscrow row.id), seed⟩, ?_, ?_⟩
    · rw [hentries]
      exact List.mem_cons_of_mem _ List.mem_cons_self
    · simp [isMarketAccount, cash]
  refine sum_neg_of_mem (fun t ht => ?_) hmem ?_
  · have hhouse := (original_of_mem h hm ht).house
    refine sum_nonpos fun e he => ?_
    split_ifs with hacc
    · exact hhouse e he hacc
    · exact le_rfl
  · rw [hentries]
    simpa [cash] using hpos

end Market

namespace Undone

variable (d : Undone facts row u confirmer w w')

def entry : LedgerTxn := ⟨unwindLedgerKey row.id, .reversal, d.legs.entries⟩

include d

theorem receivables_result : w'.receivables = d.receivables :=
  (congrArg World.receivables d.result).trans rfl

theorem unwound_result (hu : find MarketUnwind.market row.id w.unwinds = some u) (m : MarketId) :
    w'.Unwound m ↔ m = row.id ∨ w.Unwound m := by
  have hmarket : u.market = row.id := key_of_find hu
  have hfound : (find MarketUnwind.market u.market w.unwinds).isSome := by rw [hmarket, hu]; rfl
  rw [d.result]
  refine Iff.trans (World.unwound_saveUnwind ?_ m) ?_
  · exact hfound
  change (if m = u.market then UnwindStage.applied = .applied else w.Unwound m) ↔ _
  rw [hmarket]
  by_cases hm : m = row.id <;> simp [hm]

section Before

variable (h : Kept w) (hm : ¬w.Unwound row.id) (hrow : w.book.store.market row.id = some row)
include h hm hrow

theorem entries_ne_nil : d.legs.entries ≠ [] := by
  obtain ⟨n⟩ := reversal_netted d.reversed
  exact n.entries_ne_nil (taken_house_neg h hm hrow)

theorem reversalKey_eq : reversalKey row.id d.legs = some (unwindLedgerKey row.id) :=
  if_neg (d.entries_ne_nil h hm hrow)

theorem posted_eq : (openAll (w.ledger.account (cash .house)) d.legs.entries).ledgerApply .reversal
    (unwindLedgerKey row.id) d.legs.entries = .ok d.ledger := by
  have hposted := d.posted
  rwa [postReversal, if_neg (d.entries_ne_nil h hm hrow), postEntries, mapError_eq_ok] at hposted

theorem txns_ledger : d.ledger.txns = w.ledger.txns ++ [d.entry] := by
  rw [(Ledger.ledgerApply_spec (d.posted_eq h hm hrow)).txns, txns_openAll, Ledger.txns_account]
  rfl

theorem fresh_key : unwindLedgerKey row.id ∉ w.ledger.txns.map LedgerTxn.key := by
  have hfresh := (Ledger.ledgerApply_spec (d.posted_eq h hm hrow)).fresh
  rwa [txns_openAll, Ledger.txns_account] at hfresh

theorem balanceOf_ledger (k : AccountKey) :
    d.ledger.balanceOf k = w.ledger.balanceOf k + delta d.legs.entries k := by
  have hopen : Frame (fun _ => True) (w.ledger.account (cash .house))
      (openAll (w.ledger.account (cash .house)) d.legs.entries) := Frame.openAll _ _
  rw [(Ledger.ledgerApply_spec (d.posted_eq h hm hrow)).balanceOf, hopen.kept k trivial,
    Ledger.balanceOf_account]

theorem journal_ledger : Journal d.ledger := by
  have hopen : Extends (fun _ => True) (w.ledger.account (cash .house))
      (openAll (w.ledger.account (cash .house)) d.legs.entries) := Extends.openAll _ _
  exact (hopen.journal (h.journal.account _)).applied
    (Ledger.ledgerApply_spec (d.posted_eq h hm hrow))

theorem solvent_ledger : Solvent d.ledger := by
  have hopen := (Posted.account w.ledger (cash .house)).trans (Posted.openAll _ d.legs.entries)
  exact (hopen.solvent h.solvent).applied (Ledger.ledgerApply_spec (d.posted_eq h hm hrow))

theorem opens : ∃ opened, d.receivables = w.receivables ++ opened ∧
    Opens row.id (unwindLedgerKey row.id) d.legs.shortfalls opened := by
  have hopened := d.opened
  rw [d.reversalKey_eq h hm hrow] at hopened
  exact foldlM_openReceivable hopened

/-- The zeroed rows are the positions of the market. -/
theorem zeroedOut : ZeroedOut (unwindLedgerKey row.id) facts.now
    (positionsForMarket w.book.store row.id) { w.book.store with ledger := d.ledger }
    (undoneStore facts row.id d.legs d.ledger w.book.store) := by
  have hperm := perm_positionsForMarket w.book.store row.id
  unfold undoneStore
  rw [d.reversalKey_eq h hm hrow]
  refine foldl_zeroPosition h.tabled.positions_nodup ?_ ?_ ?_
  · exact (hperm.map _).nodup_iff.2 (h.tabled.positions_nodup.sublist (List.filter_sublist.map _))
  · exact fun p hp => (List.mem_filter.1 (hperm.mem_iff.1 hp)).1
  · intro f hf hkey
    exact absurd (hkey ▸ h.facts f hf) (d.fresh_key h hm hrow)

theorem store_result : w'.book.store = { w.book.store with
    ledger := d.ledger
    markets := update MarketRow.id row.id (fun r => { r with state := d.state })
      w.book.store.markets
    positions := (undoneStore facts row.id d.legs d.ledger w.book.store).positions
    realizations := (undoneStore facts row.id d.legs d.ledger w.book.store).realizations } := by
  have hkept := (d.zeroedOut h hm hrow).kept
  refine (congrArg (fun x : World => x.book.store) d.result).trans ?_
  dsimp only [World.saveUnwind, undoneBook, Book.setColumn, Book.setMarketState]
  rw [hkept]

theorem ledger_result : w'.ledger = d.ledger := by
  rw [World.ledger, d.store_result h hm hrow]

omit hrow in
/-- The reversal posts to the accounts of its own market only. -/
theorem touches_entry (htouch : Touches m d.entry) : m = row.id := by
  obtain ⟨n⟩ := reversal_netted d.reversed
  obtain ⟨e, he, hacc⟩ := htouch
  rcases n.account_of_mem he with hhouse | ⟨t, ht, hmem⟩
  · rw [hhouse] at hacc
    simp [isMarketAccount, cash] at hacc
  · obtain ⟨e', he', heq⟩ := List.mem_map.1 hmem
    rw [← heq] at hacc
    exact (original_of_mem h hm ht).own e' he' m hacc

theorem kept (hu : find MarketUnwind.market row.id w.unwinds = some u) : Kept w' := by
  have hz := d.zeroedOut h hm hrow
  have hstore := d.store_result h hm hrow
  have hledger := d.ledger_result h hm hrow
  have htxns := d.txns_ledger h hm hrow
  have hunwound := d.unwound_result hu
  obtain ⟨opened, hopened, hopens⟩ := d.opens h hm hrow
  have hkeys : w'.ledger.txns.map LedgerTxn.key =
      w.ledger.txns.map LedgerTxn.key ++ [unwindLedgerKey row.id] := by
    rw [hledger, htxns, List.map_append]
    rfl
  have hframe : Frame (fun _ => False) w.book.store.ledger d.ledger :=
    ((Frame.account _ _).trans (Frame.openAll _ _)).trans
      (Frame.applied (d.posted_eq h hm hrow) fun _ _ => id)
  refine ⟨?_, hledger ▸ d.journal_ledger h hm hrow, hledger ▸ d.solvent_ledger h hm hrow,
    fun t ht m htouch => ?_, fun r hr => ?_, fun user m hm' => ?_, fun f hf => ?_, fun r hr => ?_⟩
  · have ht := h.tabled
    rw [hstore]
    refine ⟨ht.pools_nodup, hz.nodup, ht.pool_valid, fun q hq => ?_, fun q hq => ?_,
      fun p hp => hframe.opened _ (ht.pool_opened p hp), hframe.inRange ht.inRange⟩
    · rcases hz.mem q hq with hq | ⟨p, -, rfl⟩
      · exact ht.shares_nonneg q hq
      · exact le_rfl
    · rcases hz.mem q hq with hq | ⟨p, hp, rfl⟩
      · exact hframe.opened _ (ht.holder_opened q hq)
      · have hp := (List.mem_filter.1 ((perm_positionsForMarket _ _).mem_iff.1 hp)).1
        exact hframe.opened _ (ht.holder_opened p hp)
  · rw [hledger, htxns] at ht
    rcases List.mem_append.1 ht with ht | ht
    · exact (h.originals t ht m htouch).imp_right fun hold => (hunwound m).2 (Or.inr hold)
    · rw [List.mem_singleton.1 ht] at htouch
      exact Or.inr ((hunwound m).2 (Or.inl (d.touches_entry h hm htouch)))
  · have hids : w'.book.store.markets.map MarketRow.id = w.book.store.markets.map MarketRow.id := by
      rw [hstore]
      exact map_key_update fun _ => rfl
    have hmem : r.id ∈ w.book.store.markets.map MarketRow.id := hids ▸ List.mem_map_of_mem hr
    obtain ⟨old, hold, hid⟩ := List.mem_map.1 hmem
    obtain ⟨t, ht, hseed⟩ := h.seeds old hold
    refine ⟨t, ?_, hid ▸ hseed⟩
    rw [hledger, htxns]
    exact List.mem_append_left _ ht
  · -- another market: its positions and facts are as they were
    have hne : m ≠ row.id := fun heq => hm' ((hunwound m).2 (Or.inl heq))
    have hzero : ∀ p ∈ positionsForMarket w.book.store row.id,
        Payout.ofUser user m (Store.positionKey p) = false := by
      intro p hp
      have hpm := (List.mem_filter.1 ((perm_positionsForMarket _ _).mem_iff.1 hp)).2
      have hpm : p.outcome.market = row.id := of_decide_eq_true hpm
      refine decide_eq_false fun hof => hne ?_
      exact hof.2.symm.trans hpm
    have hnone : totalOver (Payout.ofUser user m) PositionRow.realizedPnl
        (positionsForMarket w.book.store row.id) = 0 := by
      unfold totalOver
      refine List.sum_eq_zero fun x hx => ?_
      obtain ⟨p, hp, rfl⟩ := List.mem_map.1 hx
      simp [hzero p hp]
    have hsum : ((positionsForMarket w.book.store row.id).map fun p =>
        if Payout.ofUser user m (Store.positionKey p) then
          PositionRow.realizedPnl (zeroed p) - p.realizedPnl else 0).sum = 0 := by
      refine List.sum_eq_zero fun x hx => ?_
      obtain ⟨p, hp, rfl⟩ := List.mem_map.1 hx
      simp [hzero p hp]
    rw [hstore]
    dsimp only
    rw [hz.total, hz.facts, factsOf_append, factsOf_unwindRealization, hnone, hsum]
    have hold := h.realized user m fun hm₀ => hm' ((hunwound m).2 (Or.inr hm₀))
    dsimp only
    omega
  · rw [hkeys]
    rw [hstore] at hf
    dsimp only at hf
    rw [hz.facts] at hf
    rcases List.mem_append.1 hf with hf | hf
    · exact List.mem_append_left _ (h.facts f hf)
    · obtain ⟨p, -, hp⟩ := List.mem_filterMap.1 hf
      rw [(unwindRealization_spec hp).1]
      exact List.mem_append_right _ List.mem_cons_self
  · rw [hkeys]
    rw [d.receivables_result, hopened] at hr
    rcases List.mem_append.1 hr with hr | hr
    · obtain ⟨hold, hkey⟩ := h.debts r hr
      exact ⟨(hunwound _).2 (Or.inr hold), List.mem_append_left _ hkey⟩
    · obtain ⟨hmarket, hkey⟩ := hopens.ofMarket r hr
      exact ⟨(hunwound _).2 (Or.inl hmarket), hkey ▸ List.mem_append_right _ List.mem_cons_self⟩

end Before

end Undone

theorem not_unwound_of_stage (hu : find MarketUnwind.market m w.unwinds = some u)
    (hstage : u.stage ≠ .applied) : ¬w.Unwound m := by
  rintro ⟨u', hu', happlied⟩
  obtain rfl := Option.mem_unique hu hu'
  exact hstage happlied

/-- Saving another stage of a proposal that is not applied. -/
theorem unwound_restaged {stage : UnwindStage} (hu : find MarketUnwind.market m w.unwinds = some u)
    (hold : u.stage ≠ .applied) (hnew : stage ≠ .applied) (m' : MarketId) :
    (w.saveUnwind { u with stage := stage }).Unwound m' ↔ w.Unwound m' := by
  obtain rfl : u.market = m := key_of_find hu
  have hfound : (find MarketUnwind.market u.market w.unwinds).isSome := by rw [hu]; rfl
  refine Iff.trans (World.unwound_saveUnwind ?_ m') ?_
  · exact hfound
  change (if m' = u.market then stage = .applied else w.Unwound m') ↔ _
  by_cases h : m' = u.market
  · simp only [h, if_true, hnew, false_iff]
    exact not_unwound_of_stage hu hold
  · simp only [h, if_false]

theorem propose_cases {proposer : String} (h : w.propose policy facts cmd proposer = .ok (u, w')) :
    w' = w ∨ find MarketUnwind.market cmd.market w.unwinds = none ∧ u.market = cmd.market ∧
      u.stage = .proposed ∧ w' = { w with unwinds := w.unwinds ++ [u] } := by
  simp only [World.propose, ok_iff] at h
  obtain ⟨row, -, _, -, h⟩ := h
  split at h
  · split_ifs at h
    exact Or.inl (Prod.mk.inj (pure_eq_ok.1 h)).2.symm
  · simp only [World.insertUnwind, ok_iff] at h
    obtain ⟨_, ⟨_, -, rfl⟩, rfl, rfl⟩ := h
    exact Or.inr ⟨‹_›, rfl, rfl, rfl⟩

theorem unwound_proposed (hnone : find MarketUnwind.market u.market w.unwinds = none)
    (hstage : u.stage = .proposed) (m : MarketId) :
    ({ w with unwinds := w.unwinds ++ [u] } : World).Unwound m ↔ w.Unwound m := by
  unfold World.Unwound
  dsimp only
  rw [find_append, find_cons, find_nil]
  by_cases hm : u.market = m
  · subst hm
    simp [hnone, hstage]
  · simp [hm]

/-- What a command does: it books something, moves labels, unwinds a market or records
what a write-off realizes. -/
inductive Moved (w w' : World) : Prop
  | booked (c : Payout.Command) (clear : Clear c) (b' : Book) (step : w.book.step c = .ok b')
      (same : w' = { w with book := b' })
  | relabelled (book : w'.book = w.book) (debts : w'.receivables = w.receivables)
      (unwound : ∀ m, w'.Unwound m ↔ w.Unwound m)
  | applied (facts : UnwindFacts) (row : MarketRow) (u : MarketUnwind) (confirmer : String)
      (found : find MarketUnwind.market row.id w.unwinds = some u) (fresh : ¬w.Unwound row.id)
      (listed : w.book.store.market row.id = some row)
      (undone : Undone facts row u confirmer w w')
  | writtenOff (mv : ReceivableMovement) (now : Instant) (h : w.writeOff mv now = .ok w')

theorem step_moved {c : Command} (h : w.step c = .ok w') : Moved w w' := by
  cases c with
  | book c clear =>
    simp only [World.step, ok_iff] at h
    obtain ⟨b', hb, rfl⟩ := h
    exact .booked c clear b' hb rfl
  | propose =>
    obtain ⟨u, hpropose⟩ := map_snd_eq_ok.1 h
    rcases propose_cases hpropose with rfl | ⟨hnone, hmarket, hstage, rfl⟩
    · exact .relabelled rfl rfl fun _ => Iff.rfl
    · exact .relabelled rfl rfl (unwound_proposed (hmarket ▸ hnone) hstage)
  | confirm policy facts cmd confirmer =>
    obtain ⟨answer, hconfirm⟩ := map_snd_eq_ok.1 h
    cases confirm_cases hconfirm with
    | replayed u found stage answered same =>
      subst same
      exact .relabelled rfl rfl fun _ => Iff.rfl
    | expired u found stage refused result =>
      subst result
      exact .relabelled rfl rfl (unwound_restaged found (by simp [stage]) (by simp))
    | applied u found stage row listed undone =>
      obtain ⟨d⟩ := undone
      have hid : row.id = cmd.market := key_of_find listed
      rw [← hid] at found listed
      exact .applied facts row u confirmer found (not_unwound_of_stage found (by simp [stage]))
        listed d
  | reject =>
    obtain ⟨u, hreject⟩ := map_snd_eq_ok.1 h
    simp only [World.reject, not_not, ok_iff] at hreject
    obtain ⟨u, hu, _, hstage, -, rfl⟩ := hreject
    exact .relabelled rfl rfl (unwound_restaged hu (by simp [hstage]) (by simp))
  | collect =>
    simp only [World.step, World.insertMovement, ok_iff] at h
    obtain ⟨_, -, rfl⟩ := h
    exact .relabelled rfl rfl fun _ => Iff.rfl
  | writeOff mv now => exact .writtenOff mv now h

theorem step_kept {c : Command} (h : Kept w) (hstep : w.step c = .ok w') : Kept w' := by
  cases step_moved hstep with
  | booked c clear b' step same => exact same ▸ h.book clear step
  | relabelled book debts unwound => exact h.relabel book debts unwound
  | applied facts row u confirmer found fresh listed undone => exact undone.kept h fresh listed found
  | writtenOff mv now hoff =>
    simp only [World.writeOff, World.insertMovement, ok_iff] at hoff
    obtain ⟨r, hr, _, ⟨_, -, rfl⟩, rfl⟩ := hoff
    obtain ⟨hunwound, hkey⟩ := h.debts r (mem_of_find hr)
    -- the fact is of a market that was unwound, under the key of its reversal
    have hframe : Frame (fun _ => True) w.book.store.ledger w.book.store.ledger := Frame.refl _
    refine ⟨h.tabled.frame hframe rfl rfl, h.journal, h.solvent, h.originals, h.seeds,
      fun user m hm => ?_, fun f hf => ?_, h.debts⟩
    · refine (h.realized user m hm).trans ?_
      have hne : r.market ≠ m := fun heq => hm (heq ▸ hunwound)
      dsimp only [insertRealization]
      split_ifs
      · rfl
      · rw [factsOf_append]
        simp [factsOf, hne]
    · dsimp only [insertRealization] at hf
      split_ifs at hf
      · exact h.facts f hf
      · rcases mem_concat.1 hf with hf | rfl
        · exact h.facts f hf
        · exact hkey

theorem kept_run (cmds : List Command) : Kept (run World.step World.empty cmds) :=
  run_preserves (fun _ _ _ _ h hstep => step_kept h hstep) kept_empty

end Opinions.Unwind
