import Opinions.Payout.ZeroSum
import Opinions.Unwind.Kept

/-! An unwind takes a market back exactly. Over its transactions and the reversal every
account nets to nothing but the house's and those of users who were short; what they did
not pay is owed, and is the one negative leg of the house. Every realization is
compensated, and no later confirmation does anything. -/

namespace Opinions.Unwind

open Lib.Result Lib.Rows Lib.Run Domain.Ledger Model Store Trade Credit Ops Payout

/-- The market's transactions gave the user more than the user has. -/
def World.Short (w : World) (m : MarketId) (user : UserId) : Prop :=
  w.ledger.balanceOf (cash (.user user)) < taken w.ledger m (cash (.user user))

instance (w : World) (m : MarketId) (user : UserId) : Decidable (w.Short m user) :=
  inferInstanceAs (Decidable (_ < _))

/-- What a user who is to give back `taken` pays. -/
def World.pays (w : World) (m : MarketId) (user : UserId) : Int :=
  min (w.ledger.balanceOf (cash (.user user))) (taken w.ledger m (cash (.user user)))

def World.debtsIn (w : World) (m : MarketId) : List Receivable :=
  w.receivables.filter fun r => r.market = m

/-- The market was taken back exactly, by the transaction `t`. -/
structure ReversesExactly (m : MarketId) (w w' : World) (t : LedgerTxn) : Prop where
  written : w'.ledger.txns = w.ledger.txns ++ [t]
  reversal : t.kind = .reversal ∧ t.key = unwindLedgerKey m
  balanced : (t.entries.map Entry.amount).sum = 0
  nets : ∀ k, k ≠ cash .house → (∀ user, k = cash (.user user) → ¬w.Short m user) →
    taken w.ledger m k + delta t.entries k = 0
  drained : w'.ledger.balanceOf (cash (.marketEscrow m)) = 0 ∧
    w'.ledger.balanceOf (cash (.marketPool m)) = 0
  paid : ∀ user, w.Short m user → delta t.entries (cash (.user user)) = -w.pays m user
  owed : ∀ user, ((w'.debtsIn m).filter fun r => r.user = user).map Receivable.openedMicro =
    if w.Short m user then [taken w.ledger m (cash (.user user)) - w.pays m user] else []
  covered : ((t.entries.filter fun e => e.account = cash .house ∧ e.amount < 0).map
      Entry.amount) =
    if 0 < ((w'.debtsIn m).map Receivable.openedMicro).sum then
      [-((w'.debtsIn m).map Receivable.openedMicro).sum]
    else []
  compensated : ∀ user, factsOf user m w'.book.store.realizations = 0

/-- Whatever is confirmed for the market again writes nothing. -/
structure NeverAgain (m : MarketId) (t : LedgerTxn) (w : World) : Prop where
  once : (w.ledger.txns.filter fun x => x.key = unwindLedgerKey m) = [t]
  idle : ∀ policy facts cmd confirmer answer w', cmd.market = m →
    w.confirm policy facts cmd confirmer = .ok (answer, w') → w' = w

variable {w w' : World} {confirmer : String} {facts : UnwindFacts} {k : AccountKey} {c : Command}
  {t : LedgerTxn}

namespace Undone

variable {row : MarketRow} {u : MarketUnwind} (d : Undone facts row u confirmer w w') (h : Kept w)
  (hm : ¬w.Unwound row.id) (hrow : w.book.store.market row.id = some row)
include d h hm

omit hm in
/-- A user pays what they have, up to what they got. -/
theorem delta_user (user : UserId) : delta d.legs.entries (cash (.user user)) =
    max (-taken w.ledger row.id (cash (.user user))) (-w.ledger.balanceOf (cash (.user user))) := by
  obtain ⟨n⟩ := reversal_netted d.reversed
  have hsolvent := h.solvent user
  rw [n.delta_entries (by simp [cash])]
  change max _ (-max (w.ledger.balanceOf (cash (.user user))) 0) = _
  rw [max_eq_left hsolvent]

theorem shortfalls_of (user : UserId) :
    (d.legs.shortfalls.filter fun s => s.1 = user).map Prod.snd =
      if w.Short row.id user then
        [taken w.ledger row.id (cash (.user user)) - w.pays row.id user] else [] := by
  obtain ⟨n⟩ := reversal_netted d.reversed
  have hsolvent := h.solvent user
  rw [n.shortfalls_of (fun t ht => (original_of_mem h hm ht).plain) user]
  have hbooked : booked w.ledger (cash (.user user), -taken w.ledger row.id (cash (.user user))) =
      max (-taken w.ledger row.id (cash (.user user)))
        (-w.ledger.balanceOf (cash (.user user))) := by
    change max _ (-max (w.ledger.balanceOf (cash (.user user))) 0) = _
    rw [max_eq_left hsolvent]
  change ((if _ < booked _ _ then [(user, booked _ _ - _)] else []) : List _).map Prod.snd = _
  rw [hbooked]
  dsimp only
  by_cases hshort : w.Short row.id user
  · have hlt : w.ledger.balanceOf _ < taken w.ledger _ _ := hshort
    rw [if_pos hshort, if_pos (by omega)]
    simp only [World.pays, List.map_cons, List.map_nil, List.cons.injEq, and_true]
    omega
  · have hle : ¬w.ledger.balanceOf _ < taken w.ledger _ _ := hshort
    rw [if_neg hshort, if_neg (by omega)]
    rfl

include hrow

theorem debtsIn_result : ∃ opened, w'.debtsIn row.id = opened ∧
    Opens row.id (unwindLedgerKey row.id) d.legs.shortfalls opened := by
  obtain ⟨opened, hopened, hopens⟩ := d.opens h hm hrow
  refine ⟨opened, ?_, hopens⟩
  unfold World.debtsIn
  rw [d.receivables_result, hopened, List.filter_append]
  have hold : (w.receivables.filter fun r => r.market = row.id) = [] := by
    refine List.filter_eq_nil_iff.2 fun r hr hmarket => hm ?_
    exact of_decide_eq_true hmarket ▸ (h.debts r hr).1
  have hnew : (opened.filter fun r => r.market = row.id) = opened :=
    List.filter_eq_self.2 fun r hr => decide_eq_true (hopens.ofMarket r hr).1
  rw [hold, hnew, List.nil_append]

/-- The compensating facts undo what was realized. -/
theorem factsOf_result (user : UserId) : factsOf user row.id w'.book.store.realizations = 0 := by
  have hold := h.realized user row.id hm
  rw [d.store_result h hm hrow]
  dsimp only
  rw [(d.zeroedOut h hm hrow).facts, factsOf_append, factsOf_unwindRealization,
    totalOver_positionsForMarket]
  dsimp only
  omega

theorem balanceOf_drained (hk : isMarketAccount row.id k = true)
    (hnet : taken w.ledger row.id k + delta d.legs.entries k = 0) : w'.ledger.balanceOf k = 0 := by
  rw [d.ledger_result h hm hrow, d.balanceOf_ledger h hm hrow, balanceOf_eq_taken h.journal hk, hnet]

omit hrow in
theorem nets (hhouse : k ≠ cash .house)
    (hshort : ∀ user, k = cash (.user user) → ¬w.Short row.id user) :
    taken w.ledger row.id k + delta d.legs.entries k = 0 := by
  obtain ⟨n⟩ := reversal_netted d.reversed
  by_cases hcash : k.currency = .usdc
  · obtain ⟨owner, currency⟩ := k
    obtain rfl : currency = .usdc := hcash
    cases owner with
    | user user =>
      have hpays := d.delta_user h user
      have hfunded : ¬w.ledger.balanceOf _ < taken w.ledger _ _ := hshort user rfl
      change taken _ _ (cash (.user user)) + delta _ (cash (.user user)) = 0
      omega
    | _ =>
      rw [n.delta_entries hhouse]
      change _ + -_ = 0
      omega
  · -- the market's transactions are in cash
    have hzero : taken w.ledger row.id k = 0 := by
      refine List.sum_eq_zero fun x hx => ?_
      obtain ⟨t, ht, rfl⟩ := List.mem_map.1 hx
      refine delta_eq_zero fun hmem => hcash ?_
      obtain ⟨e, he, rfl⟩ := List.mem_map.1 hmem
      exact (original_of_mem h hm ht).plain e he
    rw [n.delta_entries hhouse, hzero, neg_zero, booked_zero, add_zero]

theorem reversesExactly : ReversesExactly row.id w w' d.entry := by
  obtain ⟨n⟩ := reversal_netted d.reversed
  obtain ⟨opened, hopened, hopens⟩ := d.debtsIn_result h hm hrow
  have htotal : ((w'.debtsIn row.id).map Receivable.openedMicro).sum =
      (d.legs.shortfalls.map Prod.snd).sum := by
    rw [hopened, ← hopens.amounts, List.map_map]
    rfl
  refine ⟨?_, ⟨rfl, rfl⟩, Ledger.sum_amount_of_ledgerApply (d.posted_eq h hm hrow),
    fun k => d.nets h hm, ⟨?_, ?_⟩, fun user hshort => ?_, fun user => ?_, ?_,
    d.factsOf_result h hm hrow⟩
  · rw [d.ledger_result h hm hrow, d.txns_ledger h hm hrow]
  · refine d.balanceOf_drained h hm hrow (by simp [isMarketAccount, cash]) (d.nets h hm ?_ ?_) <;>
      simp [cash]
  · refine d.balanceOf_drained h hm hrow (by simp [isMarketAccount, cash]) (d.nets h hm ?_ ?_) <;>
      simp [cash]
  · refine (d.delta_user h user).trans ?_
    have hlt : w.ledger.balanceOf _ < taken w.ledger _ _ := hshort
    unfold World.pays
    omega
  · rw [hopened, hopens.ofUser, d.shortfalls_of h hm]
  · have hhouse := (taken_house_neg h hm hrow).le
    change ((d.legs.entries.filter _).map Entry.amount) = _
    rw [n.negative_house hhouse, htotal]
    split_ifs <;> rfl

end Undone

theorem step_unwound {m : MarketId} (hm : w.Unwound m) (hstep : w.step c = .ok w') :
    w'.Unwound m := by
  cases step_moved hstep with
  | booked c clear b' step same => exact same ▸ hm
  | relabelled book debts unwound => exact (unwound m).2 hm
  | applied facts row u confirmer found fresh listed undone =>
    exact (undone.unwound_result found m).2 (Or.inr hm)
  | writtenOff mv now hoff =>
    simp only [World.writeOff, World.insertMovement, ok_iff] at hoff
    obtain ⟨r, -, _, ⟨_, -, rfl⟩, rfl⟩ := hoff
    exact hm

theorem confirm_of_unwound {policy : UnwindPolicy} {cmd : UnwindCmd}
    {answer : Except OpsError MarketUnwind} (hm : w.Unwound cmd.market)
    (h : w.confirm policy facts cmd confirmer = .ok (answer, w')) : w' = w := by
  cases confirm_cases h with
  | replayed u found stage answered same => exact same
  | expired _ found stage | applied _ found stage =>
    exact absurd hm (not_unwound_of_stage found (by simp [stage]))

theorem step_booked (h : Kept w) (hstep : w.step c = .ok w') (ht : t ∈ w.ledger.txns) :
    t ∈ w'.ledger.txns := by
  cases step_moved hstep with
  | booked c clear b' step same =>
    subst same
    exact (step_carried h.tabled step).booked t ht
  | relabelled book =>
    rwa [World.ledger, book]
  | applied facts row u confirmer found fresh listed undone =>
    rw [undone.ledger_result h fresh listed, undone.txns_ledger h fresh listed]
    exact List.mem_append_left _ ht
  | writtenOff mv now hoff =>
    simp only [World.writeOff, World.insertMovement, ok_iff] at hoff
    obtain ⟨r, -, _, ⟨_, -, rfl⟩, rfl⟩ := hoff
    exact ht

theorem filter_key_eq {l : Ledger} (h : Journal l) (ht : t ∈ l.txns) :
    (l.txns.filter fun x => x.key = t.key) = [t] := by
  have hnd : (l.txns.map LedgerTxn.key).Nodup := h.keys
  obtain ⟨xs, ys, heq⟩ := List.append_of_mem ht
  rw [heq, List.map_append, List.map_cons] at hnd
  have hne : ∀ x, x ∈ xs ∨ x ∈ ys → x.key ≠ t.key := by
    intro x hx hkey
    have hmid := (List.nodup_middle.1 hnd).notMem
    rw [← hkey, ← List.map_append] at hmid
    exact hmid (List.mem_map_of_mem (List.mem_append.2 hx))
  rw [heq, List.filter_append, List.filter_cons_of_pos (by simp)]
  rw [List.filter_eq_nil_iff.2 fun x hx => by simpa using hne x (Or.inl hx),
    List.filter_eq_nil_iff.2 fun x hx => by simpa using hne x (Or.inr hx)]
  rfl

/-- In every history, the confirmation that applies an unwind takes the market back exactly,
and the market is never unwound again. -/
theorem unwind_reverses_exactly (before after : List Command) (policy : UnwindPolicy)
    (facts : UnwindFacts) (cmd : UnwindCmd) (confirmer : String) (u : MarketUnwind) (w' : World)
    (hfirst : ¬(run World.step World.empty before).Unwound cmd.market)
    (hconfirm : (run World.step World.empty before).confirm policy facts cmd confirmer =
      .ok (.ok u, w')) :
    ∃ t, ReversesExactly cmd.market (run World.step World.empty before) w' t ∧
      NeverAgain cmd.market t (run World.step w' after) := by
  have hkept := kept_run before
  cases confirm_cases hconfirm with
  | replayed u found stage => exact absurd ⟨u, found, stage⟩ hfirst
  | expired u found stage refused => exact absurd rfl (refused _)
  | applied u found stage row listed undone =>
    obtain ⟨d⟩ := undone
    have hid : row.id = cmd.market := key_of_find listed
    rw [← hid] at found listed hfirst ⊢
    have hexact := d.reversesExactly hkept hfirst listed
    have hbooked : d.entry ∈ w'.ledger.txns := by
      rw [hexact.written]
      exact List.mem_append_right _ List.mem_cons_self
    -- from here on the unwind is applied and its transaction booked
    have hlater : Kept (run World.step w' after) ∧ (run World.step w' after).Unwound row.id ∧
        d.entry ∈ (run World.step w' after).ledger.txns :=
      run_preserves (P := fun x => Kept x ∧ x.Unwound row.id ∧ d.entry ∈ x.ledger.txns)
        (fun _ _ _ _ hx hstep =>
          ⟨step_kept hx.1 hstep, step_unwound hx.2.1 hstep, step_booked hx.1 hstep hx.2.2⟩)
        ⟨d.kept hkept hfirst listed found, (d.unwound_result found _).2 (Or.inl rfl), hbooked⟩
    refine ⟨d.entry, hexact, filter_key_eq hlater.1.journal hlater.2.2, ?_⟩
    intro policy facts cmd' confirmer answer w'' hmarket hagain
    exact confirm_of_unwound (hmarket ▸ hlater.2.1) hagain

def sampleTrade (user : UserId) (action : Config.TradeAction) (amount : Int) (key : String) : Command :=
  .book (.market (.trade flatRep plainFacts ⟨⟨1#128⟩, user, .yes, action, amount, key, some 0⟩))
    trivial

def samplePolicy : UnwindPolicy := { OpsPolicy.default with receivableOutstandingCapMicro := 1000000 }

def sampleUnwindFacts (now : Instant) : UnwindFacts :=
  { now := now, began := now, fresh := UserId.uuid, allocations := .ok () }

/-- Two users buy, the first sells at a profit and withdraws, the market closes, is held for
review and flagged, and its unwind is proposed. -/
def sampleHistory : List Command :=
  [.book (.market (.post .deposit "deposit" [⟨cash .external, -4000000⟩, ⟨cash .house, 2000000⟩,
      ⟨cash (.user ⟨7#128⟩), 1000000⟩, ⟨cash (.user ⟨8#128⟩), 1000000⟩] (by simp [IsEscrow, cash])))
      (by simp [Clear, IsMarket, isMarketAccount, cash]),
   .book (.market (.seed flatRep ⟨0, 1⟩
      ⟨⟨1#128⟩, "m", 1, 200, 100, 100, 1000000, "seed", false⟩)) trivial,
   .book (.market (.advance ⟨1#128⟩ .goLive)) trivial,
   sampleTrade ⟨7#128⟩ .buy 500000 "buy", sampleTrade ⟨8#128⟩ .buy 900000 "second",
   sampleTrade ⟨7#128⟩ .sell 700000 "sell",
   .book (.market (.post .withdrawal "withdraw" [⟨cash (.user ⟨7#128⟩), -1050000⟩,
      ⟨cash .external, 1050000⟩] (by simp [IsEscrow, cash])))
      (by simp [Clear, IsMarket, isMarketAccount, cash]),
   .book (.market (.advance ⟨1#128⟩ .enterCloseWindow)) trivial,
   .book (.market (.advance ⟨1#128⟩ .close)) trivial,
   .book (.resolve { sampleResolveConfig with payoutHoldThresholdMicro := 1000 } sampleFacts
      ⟨1#128⟩ none) trivial,
   .book (.flag ⟨1#128⟩ 400) trivial,
   .propose samplePolicy (sampleUnwindFacts 500) ⟨⟨1#128⟩, "fraud", "k"⟩ "first"]

def sampleConfirm : Except OpsError (Except OpsError MarketUnwind × World) :=
  (run World.step World.empty sampleHistory).confirm samplePolicy (sampleUnwindFacts 61000000000)
    ⟨⟨1#128⟩, "fraud", "k"⟩ "second"

theorem sampleConfirm_reverses : ∃ u w' t, sampleConfirm = .ok (.ok u, w') ∧
    (run World.step World.empty sampleHistory).Short ⟨1#128⟩ ⟨7#128⟩ ∧
    ReversesExactly ⟨1#128⟩ (run World.step World.empty sampleHistory) w' t := by
  have hshort : (run World.step World.empty sampleHistory).Short ⟨1#128⟩ ⟨7#128⟩ := by
    decide +kernel
  have hfirst : ¬(run World.step World.empty sampleHistory).Unwound ⟨1#128⟩ := by
    decide +kernel
  have hanswer : sampleConfirm.map Prod.fst = .ok (.ok ⟨⟨1#128⟩, unwindKey ⟨1#128⟩ "k", .applied,
      "first", some "second", "fraud", 60000000500, some (unwindLedgerKey ⟨1#128⟩)⟩) := by
    decide +kernel
  obtain ⟨⟨answer, w'⟩, hconfirm, heq⟩ := map_eq_ok.1 hanswer
  dsimp only at heq
  subst heq
  obtain ⟨t, ht, -⟩ := unwind_reverses_exactly sampleHistory [] samplePolicy
    (sampleUnwindFacts 61000000000) ⟨⟨1#128⟩, "fraud", "k"⟩ "second" _ w' hfirst hconfirm
  exact ⟨_, w', t, hconfirm, hshort, ht⟩

end Opinions.Unwind
