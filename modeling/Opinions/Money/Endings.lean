import Opinions.Money.Attempts
import Opinions.Money.Dual

/-! How withdrawals end. Every row's hold is booked for its amount, no two rows name the
same release or settle transaction, and every amount is positive. -/

namespace Opinions.Money

open Lib.Rows Lib.Run Domain.Ledger Store Trade

def holdTxn (r : WithdrawalRow) : LedgerTxn :=
  { key := r.holdTx, kind := .withdrawal
    entries := [⟨cash (.user r.user), -r.amountMicro⟩, ⟨cash .withheld, r.amountMicro⟩] }

/-- No two rows name the same transaction in the column. -/
def Distinct (column : WithdrawalRow → Option String) (rows : List WithdrawalRow) : Prop :=
  ∀ r ∈ rows, ∀ r' ∈ rows, ∀ key, column r = some key → column r' = some key → r.id = r'.id

structure Endings (db : MoneyDb) : Prop where
  held : ∀ r ∈ db.withdrawals, holdTxn r ∈ db.ledger.txns
  releases : Distinct WithdrawalRow.releaseTx db.withdrawals
  settles : Distinct WithdrawalRow.settleTx db.withdrawals

variable {key : String} {l : Ledger} {r : WithdrawalRow}

theorem Accounted.release_booked (h : Accounted l r) (hkey : r.releaseTx = some key) :
    key ∈ l.txns.map LedgerTxn.key := by
  cases h with
  | active _ release | settled _ _ release => rw [release] at hkey; cases hkey
  | released key' _ release _ booked =>
    obtain rfl := Option.mem_unique release hkey
    exact List.mem_map_of_mem booked

theorem Accounted.settle_booked (h : Accounted l r) (hkey : r.settleTx = some key) :
    key ∈ l.txns.map LedgerTxn.key := by
  cases h with
  | active _ _ settle | released _ _ _ settle => rw [settle] at hkey; cases hkey
  | settled key' _ _ settle booked =>
    obtain rfl := Option.mem_unique settle hkey
    exact List.mem_map_of_mem booked

variable {db db' : MoneyDb} {next row : WithdrawalRow}

section Rows

variable {column : WithdrawalRow → Option String}

/-- A moved row keeps its transaction or names one whose key was not booked before. -/
theorem Distinct.moved (h : Distinct column db.withdrawals)
    (hids : (db.withdrawals.map WithdrawalRow.id).Nodup)
    (hbooked : ∀ r ∈ db.withdrawals, ∀ key, column r = some key →
      key ∈ db.ledger.txns.map LedgerTxn.key)
    (hmoved : RowMoved db row next db')
    (hnext : column (MoneyDb.written next row) = column row ∨
      ∃ key, column (MoneyDb.written next row) = some key ∧
        key ∉ db.ledger.txns.map LedgerTxn.key) : Distinct column db'.withdrawals := by
  have hrow : row ∈ db.withdrawals := mem_of_find hmoved.found
  have hother : ∀ r ∈ db.withdrawals, r.id ≠ row.id → ∀ key, column r = some key →
      column (MoneyDb.written next row) ≠ some key := by
    intro r hr hne key hkey hwritten
    rcases hnext with hsame | ⟨key', hkey', hfresh⟩
    · exact hne (h r hr row hrow key hkey (hsame ▸ hwritten))
    · obtain rfl := Option.mem_unique hkey' hwritten
      exact hfresh (hbooked r hr key' hkey)
  intro r hr r' hr' key hkey hkey'
  rcases hmoved.mem hids hr with rfl | ⟨hr, hne⟩ <;>
    rcases hmoved.mem hids hr' with rfl | ⟨hr', hne'⟩
  · rfl
  · exact absurd hkey (hother r' hr' hne' key hkey')
  · exact absurd hkey' (hother r hr hne key hkey)
  · exact h r hr r' hr' key hkey hkey'

theorem Distinct.concat {rows : List WithdrawalRow} (h : Distinct column rows)
    (hnone : column row = none) : Distinct column (rows ++ [row]) := by
  intro r hr r' hr' key hkey hkey'
  rcases mem_concat.1 hr with hr | rfl
  · rcases mem_concat.1 hr' with hr' | rfl
    · exact h r hr r' hr' key hkey hkey'
    · rw [hnone] at hkey'
      cases hkey'
  · rw [hnone] at hkey
    cases hkey

end Rows

section Steps

variable (hc : Conserved db) (h : Endings db)
include hc h

theorem Endings.moved (hmoved : RowMoved db row next db')
    (hbooked : ∀ t ∈ db.ledger.txns, t ∈ db'.ledger.txns)
    (hrelease : next.releaseTx = row.releaseTx ∨
      ∃ key, next.releaseTx = some key ∧ key ∉ db.ledger.txns.map LedgerTxn.key)
    (hsettle : next.settleTx = row.settleTx ∨
      ∃ key, next.settleTx = some key ∧ key ∉ db.ledger.txns.map LedgerTxn.key) : Endings db' where
  held := fun r hr => by
    rcases hmoved.mem hc.ids hr with rfl | ⟨hr, -⟩
    · exact hbooked _ (h.held row (mem_of_find hmoved.found))
    · exact hbooked _ (h.held r hr)
  releases := h.releases.moved hc.ids
    (fun r hr _ hkey => (hc.accounted r hr).release_booked hkey) hmoved hrelease
  settles := h.settles.moved hc.ids
    (fun r hr _ hkey => (hc.accounted r hr).settle_booked hkey) hmoved hsettle

theorem Endings.advanced (hmoved : RowMoved db row next db') (hl : db'.ledger = db.ledger)
    (htxns : SameTxns row next) : Endings db' :=
  Endings.moved hc h hmoved (fun _ ht => hl ▸ ht) (Or.inl htxns.1) (Or.inl htxns.2)

theorem Endings.released (hmoved : RowMoved db row next db')
    (hrel : Released db.ledger row next db'.ledger) : Endings db' := by
  obtain ⟨⟨key, hkey, hlegs⟩, hsame⟩ := hrel
  refine Endings.moved hc h hmoved (fun t ht => ?_) (Or.inr ⟨key, hkey, hlegs.fresh⟩) (Or.inl hsame)
  rw [hlegs.txns]
  exact List.mem_append_left _ ht

omit hc in
theorem Endings.kept (hbooked : ∀ t ∈ db.ledger.txns, t ∈ db'.ledger.txns)
    (hw : db'.withdrawals = db.withdrawals) : Endings db' where
  held := fun r hr => hbooked _ (h.held r (hw ▸ hr))
  releases := hw ▸ h.releases
  settles := hw ▸ h.settles

theorem Endings.effect (heffect : Effect db db') : Endings db' := by
  cases heffect with
  | quiet ledger withdrawals => exact h.kept ledger.booked withdrawals
  | requested row mid ingress hold combo txns fresh withdrawals =>
    have hbooked : ∀ t ∈ db.ledger.txns, t ∈ db'.ledger.txns := fun t ht => by
      rw [hold.txns]
      exact List.mem_append_left _ (ingress.booked t ht)
    refine ⟨fun r hr => ?_, ?_, ?_⟩
    · rw [withdrawals] at hr
      rcases mem_concat.1 hr with hr | rfl
      · exact hbooked _ (h.held r hr)
      · rw [hold.txns]
        exact List.mem_append_right _ (List.mem_singleton_self _)
    · rw [withdrawals]
      exact h.releases.concat txns.1
    · rw [withdrawals]
      exact h.settles.concat txns.2
  | reviewed _ _ moved _ txns ledger | claimed _ _ _ moved _ _ txns _ ledger
  | landed _ _ _ moved _ txns _ ledger => exact h.advanced hc moved ledger txns
  | denied _ _ moved _ release | failed _ _ _ moved _ _ _ _ release =>
    exact h.released hc moved release
  | noted _ _ _ _ _ _ ledger withdrawals | refund _ ledger withdrawals =>
    exact h.kept (fun _ ht => ledger ▸ ht) withdrawals
  | replaced row next old a mid moved start stop txns _ _ _ _ ledger =>
    exact h.advanced hc moved ledger txns
  | settled row next key moved start stop txns settle =>
    refine Endings.moved hc h moved (fun t ht => ?_) (Or.inl txns.1)
      (Or.inr ⟨key, txns.2, settle.fresh⟩)
    rw [settle.txns]
    exact List.mem_append_left _ ht

end Steps

theorem Handled.positive {d : Digests} {c : Command} (h : Handled d db c db')
    (hids : (db.withdrawals.map WithdrawalRow.id).Nodup)
    (hpos : ∀ r ∈ db.withdrawals, 0 < r.amountMicro) :
    ∀ r ∈ db'.withdrawals, 0 < r.amountMicro := by
  have hmoved : ∀ {row next}, RowMoved db row next db' →
      ∀ r ∈ db'.withdrawals, 0 < r.amountMicro := by
    intro row next hm r hr
    rcases hm.mem hids hr with rfl | ⟨hr, -⟩
    · exact hpos row (mem_of_find hm.found)
    · exact hpos r hr
  cases h with
  | untouched withdrawals => rwa [withdrawals]
  | requested row _ positive withdrawals =>
    rw [withdrawals, List.forall_mem_append, List.forall_mem_singleton]
    exact ⟨hpos, positive⟩
  | single _ _ advanced | proposed _ _ _ _ _ _ _ advanced | confirmed _ _ _ _ _ _ _ advanced =>
    exact hmoved advanced.moved

/-- Everything known of the rows in a reachable state. -/
structure Sound (db : MoneyDb) : Prop where
  conserved : Conserved db
  tracked : Tracked db
  endings : Endings db
  positive : ∀ r ∈ db.withdrawals, 0 < r.amountMicro

theorem sound_empty : Sound MoneyDb.empty where
  conserved := conserved_empty
  tracked := tracked_empty
  endings := by constructor <;> simp [MoneyDb.empty, Distinct]
  positive := by simp [MoneyDb.empty]

theorem sound_run (d : Digests) (cmds : List Command) :
    Sound (run (MoneyDb.step d) MoneyDb.empty cmds) := by
  refine run_preserves (fun c _ db db' h hstep => ?_) sound_empty
  have heffect := MoneyDb.step_effect hstep
  exact ⟨h.conserved.effect heffect, h.tracked.effect h.conserved.ids heffect,
    h.endings.effect h.conserved heffect, (MoneyDb.step_handled hstep).positive
      h.conserved.ids h.positive⟩

end Opinions.Money
