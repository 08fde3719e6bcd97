import Opinions.Money.Machine

/-! Conservation of holds. In every reachable state the withheld account holds
exactly what the rows with an active hold asked for, and every row that is done names
the one transaction that took its hold away. -/

namespace Opinions.Money

open Lib.Rows Lib.Run Domain.Ledger Store Trade

/-- The transaction that gives the row's amount back to its user. -/
def releaseTxn (r : WithdrawalRow) (key : String) : LedgerTxn :=
  { key := key, kind := .reversal
    entries := [⟨cash .withheld, -r.amountMicro⟩, ⟨cash (.user r.user), r.amountMicro⟩] }

/-- The transaction that pays the row's amount out. -/
def settleTxn (r : WithdrawalRow) (key : String) : LedgerTxn :=
  { key := key, kind := .withdrawal
    entries := [⟨cash .withheld, -r.amountMicro⟩, ⟨cash .external, r.amountMicro⟩] }

/-- A row with an active hold names no transaction; a row that is done names exactly
one, which moved its amount. -/
inductive Accounted (l : Ledger) (r : WithdrawalRow) : Prop
  | active (hold : r.combo.hasActiveHold = true) (release : r.releaseTx = none)
      (settle : r.settleTx = none)
  | released (key : String) (status : r.combo.status = .denied ∨ r.combo.status = .failed)
      (release : r.releaseTx = some key) (settle : r.settleTx = none)
      (booked : releaseTxn r key ∈ l.txns)
  | settled (key : String) (status : r.combo.status = .settled) (release : r.releaseTx = none)
      (settle : r.settleTx = some key) (booked : settleTxn r key ∈ l.txns)

variable {r : WithdrawalRow}

theorem Accounted.mono {l l' : Ledger} (h : Accounted l r) (hbooked : ∀ t ∈ l.txns, t ∈ l'.txns) :
    Accounted l' r := by
  cases h with
  | active hold release settle => exact .active hold release settle
  | released key status release settle booked =>
    exact .released key status release settle (hbooked _ booked)
  | settled key status release settle booked =>
    exact .settled key status release settle (hbooked _ booked)

theorem Accounted.txns_none {l : Ledger} (h : Accounted l r) (hold : r.combo.hasActiveHold = true) :
    r.releaseTx = none ∧ r.settleTx = none := by
  cases h with
  | active _ release settle => exact ⟨release, settle⟩
  | released _ status => rcases status with hs | hs <;> simp [Combo.hasActiveHold, hs] at hold
  | settled _ status => simp [Combo.hasActiveHold, status] at hold

def heldMicro (r : WithdrawalRow) : Int := if r.combo.hasActiveHold then r.amountMicro else 0

def MoneyDb.activeHolds (db : MoneyDb) : Int :=
  ((db.withdrawals.filter fun r => r.combo.hasActiveHold).map WithdrawalRow.amountMicro).sum

theorem MoneyDb.activeHolds_eq (db : MoneyDb) :
    db.activeHolds = (db.withdrawals.map heldMicro).sum :=
  sum_filter (fun r : WithdrawalRow => r.combo.hasActiveHold) _ _

structure Conserved (db : MoneyDb) : Prop where
  ids : (db.withdrawals.map WithdrawalRow.id).Nodup
  legal : ∀ r ∈ db.withdrawals, r.combo.isLegal = true
  withheld : db.ledger.balanceOf (cash .withheld) = db.activeHolds
  accounted : ∀ r ∈ db.withdrawals, Accounted db.ledger r

theorem conserved_empty : Conserved MoneyDb.empty :=
  ⟨List.nodup_nil, by simp [MoneyDb.empty], rfl, by simp [MoneyDb.empty]⟩

variable {row next : WithdrawalRow} {db db' : MoneyDb}

theorem RowMoved.mem (h : RowMoved db row next db')
    (hids : (db.withdrawals.map WithdrawalRow.id).Nodup) (hr : r ∈ db'.withdrawals) :
    r = MoneyDb.written next row ∨ r ∈ db.withdrawals ∧ r.id ≠ row.id := by
  rw [h.withdrawals] at hr
  obtain ⟨r₀, hr₀, rfl⟩ := mem_update.1 hr
  split_ifs with hid
  · have hfind := find_of_mem hids hr₀
    rw [hid] at hfind
    exact Or.inl (congrArg _ (Option.mem_unique hfind h.found))
  · exact Or.inr ⟨hr₀, hid⟩

theorem RowMoved.activeHolds (h : RowMoved db row next db')
    (hids : (db.withdrawals.map WithdrawalRow.id).Nodup) :
    db'.activeHolds = db.activeHolds + (heldMicro (MoneyDb.written next row) - heldMicro row) := by
  rw [db'.activeHolds_eq, db.activeHolds_eq, h.withdrawals, sum_update hids h.found]

theorem RowMoved.ids (h : RowMoved db row next db') :
    db'.withdrawals.map WithdrawalRow.id = db.withdrawals.map WithdrawalRow.id := by
  rw [h.withdrawals, map_key_update (MoneyDb.written_id next)]

section Steps

variable (hc : Conserved db)
include hc

/-- A moved row keeps the books if its new state is legal and accounted for and the
withheld balance moved with its hold. -/
theorem Conserved.moved (hmoved : RowMoved db row next db')
    (hbooked : ∀ t ∈ db.ledger.txns, t ∈ db'.ledger.txns) (hlegal : next.combo.isLegal = true)
    (hacc : Accounted db'.ledger (MoneyDb.written next row))
    (hbal : db'.ledger.balanceOf (cash .withheld) = db.ledger.balanceOf (cash .withheld) +
      (heldMicro (MoneyDb.written next row) - heldMicro row)) : Conserved db' where
  ids := hmoved.ids ▸ hc.ids
  legal := fun r hr => by
    rcases hmoved.mem hc.ids hr with rfl | ⟨hr, -⟩
    · exact hlegal
    · exact hc.legal r hr
  withheld := by rw [hbal, hmoved.activeHolds hc.ids, hc.withheld]
  accounted := fun r hr => by
    rcases hmoved.mem hc.ids hr with rfl | ⟨hr, -⟩
    · exact hacc
    · exact (hc.accounted r hr).mono hbooked

theorem Conserved.txns_none (hfound : db.withdrawal row.id = some row)
    (hold : row.combo.hasActiveHold = true) : row.releaseTx = none ∧ row.settleTx = none :=
  (hc.accounted row (mem_of_find hfound)).txns_none hold

theorem Conserved.advanced (hmoved : RowMoved db row next db') (hl : db'.ledger = db.ledger)
    (htxns : SameTxns row next) (hold : row.combo.hasActiveHold = true)
    (hlegal : next.combo.isLegal = true) (hnext : next.combo.hasActiveHold = true) :
    Conserved db' := by
  obtain ⟨hrelease, hsettle⟩ := hc.txns_none hmoved.found hold
  refine hc.moved hmoved (fun t ht => hl ▸ ht) hlegal
    (.active hnext (htxns.1.trans hrelease) (htxns.2.trans hsettle)) ?_
  have hnext' : (MoneyDb.written next row).combo.hasActiveHold = true := hnext
  rw [hl, heldMicro, heldMicro, if_pos hold, if_pos hnext']
  simp [MoneyDb.written]

theorem Conserved.released (hmoved : RowMoved db row next db')
    (hrel : Released db.ledger row next db'.ledger) (hold : row.combo.hasActiveHold = true)
    (hlegal : next.combo.isLegal = true)
    (hstatus : next.combo.status = .denied ∨ next.combo.status = .failed) : Conserved db' := by
  obtain ⟨-, hsettle⟩ := hc.txns_none hmoved.found hold
  obtain ⟨⟨key, hkey, hlegs⟩, hsame⟩ := hrel
  refine hc.moved hmoved (fun t ht => ?_) hlegal
    (.released key hstatus hkey (hsame.trans hsettle) ?_) ?_
  · rw [hlegs.txns]
    exact List.mem_append_left _ ht
  · rw [hlegs.txns]
    exact List.mem_append_right _ (List.mem_singleton_self _)
  · have hdone : (MoneyDb.written next row).combo.hasActiveHold = false := by
      rcases hstatus with hs | hs <;> simp [MoneyDb.written, Combo.hasActiveHold, hs]
    rw [hlegs.balanceOf, heldMicro, heldMicro, if_pos hold, if_neg (by simp [hdone])]
    simp [cash]

theorem Conserved.settled {key : String} (hmoved : RowMoved db row next db')
    (hold : row.combo.hasActiveHold = true) (hstop : next.combo = .w10)
    (htxns : next.releaseTx = row.releaseTx ∧ next.settleTx = some key)
    (hlegs : db.ledger.TwoLegged .withdrawal key ⟨cash .withheld, -row.amountMicro⟩
      ⟨cash .external, row.amountMicro⟩ db'.ledger) : Conserved db' := by
  obtain ⟨hrelease, -⟩ := hc.txns_none hmoved.found hold
  have hstatus : (MoneyDb.written next row).combo = .w10 := hstop
  refine hc.moved hmoved (fun t ht => ?_) (by rw [hstop]; rfl)
    (.settled key (by rw [hstatus]; rfl) (htxns.1.trans hrelease) htxns.2 ?_) ?_
  · rw [hlegs.txns]
    exact List.mem_append_left _ ht
  · rw [hlegs.txns]
    exact List.mem_append_right _ (List.mem_singleton_self _)
  · rw [hlegs.balanceOf, heldMicro, heldMicro, if_pos hold, hstatus,
      if_neg (by simp [Combo.hasActiveHold, Combo.w10])]
    simp [cash]

/-- A request's row starts with its amount withheld. -/
theorem Conserved.requested {mid : Ledger} (hframe : Frame IsWithheld db.ledger mid)
    (hlegs : mid.TwoLegged .withdrawal row.holdTx ⟨cash (.user row.user), -row.amountMicro⟩
      ⟨cash .withheld, row.amountMicro⟩ db'.ledger) (hcombo : row.combo = .w1)
    (htxns : row.releaseTx = none ∧ row.settleTx = none)
    (hfresh : row.id ∉ db.withdrawals.map WithdrawalRow.id)
    (hw : db'.withdrawals = db.withdrawals ++ [row]) : Conserved db' where
  ids := by
    rw [hw, List.map_append]
    simpa using hc.ids.concat hfresh
  legal := fun r hr => by
    rw [hw, mem_concat] at hr
    rcases hr with hr | rfl
    · exact hc.legal r hr
    · rw [hcombo]
      rfl
  withheld := by
    rw [hlegs.balanceOf, hframe.kept _ rfl, hc.withheld, db'.activeHolds_eq, db.activeHolds_eq, hw,
      List.map_append, List.sum_append]
    simp [heldMicro, hcombo, Combo.hasActiveHold, Combo.w1, cash]
  accounted := fun r hr => by
    rw [hw, mem_concat] at hr
    rcases hr with hr | rfl
    · refine (hc.accounted r hr).mono fun t ht => ?_
      rw [hlegs.txns]
      exact List.mem_append_left _ (hframe.booked t ht)
    · exact .active (by rw [hcombo]; rfl) htxns.1 htxns.2

theorem Conserved.kept (hframe : Frame IsWithheld db.ledger db'.ledger)
    (hw : db'.withdrawals = db.withdrawals) : Conserved db' where
  ids := hw ▸ hc.ids
  legal := hw ▸ hc.legal
  withheld := by rw [hframe.kept _ rfl, hc.withheld, MoneyDb.activeHolds, MoneyDb.activeHolds, hw]
  accounted := fun r hr => (hc.accounted r (hw ▸ hr)).mono hframe.booked

theorem Conserved.effect (h : Effect db db') : Conserved db' := by
  cases h with
  | quiet ledger withdrawals => exact hc.kept ledger withdrawals
  | requested row mid ingress hold combo txns fresh withdrawals =>
    exact hc.requested ingress hold combo txns fresh withdrawals
  | reviewed _ _ moved edge txns ledger | landed _ _ _ moved edge txns _ ledger =>
    obtain ⟨hold, hlegal, hnext⟩ := edge.active
    exact hc.advanced moved ledger txns hold hlegal hnext
  | denied row next moved target release =>
    obtain ⟨hold, hlegal, hstatus⟩ := Combo.denyTarget_spec target
    exact hc.released moved release hold hlegal (Or.inl hstatus)
  | claimed _ _ _ moved start stop txns _ ledger
  | replaced _ _ _ _ _ moved start stop txns _ _ _ _ ledger =>
    exact hc.advanced moved ledger txns (by rw [start]; rfl) (by rw [stop]; rfl) (by rw [stop]; rfl)
  | noted row a _ _ _ _ ledger withdrawals =>
    exact hc.kept (ledger ▸ Frame.refl _) withdrawals
  | failed row next old moved start stop _ _ release =>
    refine hc.released moved release ?_ (by rw [stop]; rfl) (Or.inr (by rw [stop]; rfl))
    rcases start with hs | hs <;> rw [hs] <;> rfl
  | settled row next key moved start stop txns settle =>
    exact hc.settled moved (by rw [start]; rfl) stop txns settle
  | refund _ ledger withdrawals => exact hc.kept (ledger ▸ Frame.refl _) withdrawals

end Steps

/-- Every effect leaves the rows as they are, adds one, or moves one with a hold. -/
theorem Effect.rows (h : Effect db db') :
    db'.withdrawals = db.withdrawals ∨ (∃ row, db'.withdrawals = db.withdrawals ++ [row]) ∨
      ∃ row next, RowMoved db row next db' ∧ row.combo.hasActiveHold = true := by
  cases h with
  | quiet _ withdrawals | noted _ _ _ _ _ _ _ withdrawals | refund _ _ withdrawals =>
    exact Or.inl withdrawals
  | requested row _ _ _ _ _ _ withdrawals => exact Or.inr (Or.inl ⟨row, withdrawals⟩)
  | reviewed row next moved edge | landed row next _ moved edge =>
    exact Or.inr (Or.inr ⟨row, next, moved, edge.active.1⟩)
  | denied row next moved target =>
    exact Or.inr (Or.inr ⟨row, next, moved, (Combo.denyTarget_spec target).1⟩)
  | claimed row next _ moved start | settled row next _ moved start
  | replaced row next _ _ _ moved start =>
    exact Or.inr (Or.inr ⟨row, next, moved, by rw [start]; rfl⟩)
  | failed row next _ moved start =>
    refine Or.inr (Or.inr ⟨row, next, moved, ?_⟩)
    rcases start with hs | hs <;> rw [hs] <;> rfl

/-- No effect touches a row without a hold. -/
theorem Effect.done (h : Effect db db') (hr : db.withdrawal r.id = some r)
    (hdone : r.combo.hasActiveHold = false) : db'.withdrawal r.id = some r := by
  rcases h.rows with hw | ⟨row, hw⟩ | ⟨row, next, hmoved, hold⟩
  · rwa [MoneyDb.withdrawal, hw]
  · rw [MoneyDb.withdrawal, hw, find_append]
    change (db.withdrawal r.id).or _ = _
    rw [hr, Option.some_or]
  · have hne : r.id ≠ row.id := by
      intro heq
      have hsame := hmoved.found
      rw [← heq, hr, Option.some.injEq] at hsame
      rw [hsame, hold] at hdone
      cases hdone
    rwa [MoneyDb.withdrawal, hmoved.withdrawals, find_update_of_ne (MoneyDb.written_id next) hne]

theorem conserved_run (d : Digests) (cmds : List Command) :
    Conserved (run (MoneyDb.step d) MoneyDb.empty cmds) :=
  run_preserves (fun _ _ _ _ hc h => hc.effect (MoneyDb.step_effect h)) conserved_empty

theorem done_run (d : Digests) (cmds : List Command) (hr : db.withdrawal r.id = some r)
    (hdone : r.combo.hasActiveHold = false) :
    (run (MoneyDb.step d) db cmds).withdrawal r.id = some r :=
  run_preserves (P := fun db => db.withdrawal r.id = some r)
    (fun _ _ _ _ hr h => (MoneyDb.step_effect h).done hr hdone) hr

/-- After any history every row is in the table, the withheld balance is the sum of the
active holds, every row's transactions are accounted for, and a row that is done stays
as it is whatever follows. -/
theorem holds_conserved (d : Digests) (cmds : List Command) :
    (∀ r ∈ (run (MoneyDb.step d) MoneyDb.empty cmds).withdrawals, r.combo ∈ Combo.table) ∧
    (run (MoneyDb.step d) MoneyDb.empty cmds).ledger.balanceOf (cash .withheld) =
      (run (MoneyDb.step d) MoneyDb.empty cmds).activeHolds ∧
    (∀ r ∈ (run (MoneyDb.step d) MoneyDb.empty cmds).withdrawals,
      Accounted (run (MoneyDb.step d) MoneyDb.empty cmds).ledger r) ∧
    ∀ r ∈ (run (MoneyDb.step d) MoneyDb.empty cmds).withdrawals, r.combo.hasActiveHold = false →
      ∀ later, (run (MoneyDb.step d) MoneyDb.empty (cmds ++ later)).withdrawal r.id = some r := by
  have hc := conserved_run d cmds
  refine ⟨fun r hr => (Combo.isLegal_iff _).1 (hc.legal r hr), hc.withheld, hc.accounted, ?_⟩
  intro r hr hdone later
  rw [run_append]
  exact done_run d later (find_of_mem hc.ids hr) hdone

end Opinions.Money
