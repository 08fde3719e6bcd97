import Opinions.Deposit.Machine

/-! Suspense is conserved. In every reachable state the suspense account holds exactly
the deposits that have not left it; a deposit entered it once, under its chain
signature, and leaves it at most once, to its user or back to its source, for its
amount; and its status came along edges of the published table. -/

namespace Opinions.Deposit

open Lib.Rows Lib.Run Domain.Ledger Model Store Trade Money

variable {id : DepositId} {key : String} {l l' : Ledger} {next row : DepositMachineRow}
  {db db' : DepositDb} {id' : DepositId} {entries : List (Entry AccountKey)} {kind : TxnKind}
  {outs : List LedgerTxn} {r : DepositMachineRow} {cs : List StatusChange}
  {stop : DepositMachineStatus}

theorem keyOf_inj {family : String} (h : keyOf family id = keyOf family id') : id = id' := by
  have hlist := congrArg String.toList h
  simp only [keyOf, String.toList_append, String.toList_ofList] at hlist
  exact congrArg DepositId.mk (Uuid.text_injective (List.append_cancel_left hlist))

theorem observeKey_inj {sig sig' : String} (h : observeKey sig = observeKey sig') : sig = sig' := by
  have hlist := congrArg String.toList h
  simp only [observeKey, String.toList_append] at hlist
  exact String.toList_injective (List.append_cancel_left hlist)

/-- The character after `deposit-`, which tells the keys of a deposit apart. -/
def ninth (key : String) : Option Char := key.toList[8]?

@[simp] theorem ninth_observeKey (sig : String) : ninth (observeKey sig) = some 'o' := by
  rw [ninth, observeKey, String.toList_append, List.getElem?_append_left (by decide)]
  rfl

@[simp] theorem ninth_admitKey (id : DepositId) : ninth (admitKey id) = some 'a' := by
  rw [ninth, admitKey, keyOf, String.toList_append, List.getElem?_append_left (by decide)]
  rfl

@[simp] theorem ninth_refundKey (id : DepositId) : ninth (refundKey id) = some 'r' := by
  rw [ninth, refundKey, keyOf, String.toList_append, List.getElem?_append_left (by decide)]
  rfl

/-- A key under which the deposit leaves suspense. -/
def LeavesUnder (id : DepositId) (key : String) : Prop := key = admitKey id ∨ key = refundKey id

instance decidableLeavesUnder (id : DepositId) (key : String) : Decidable (LeavesUnder id key) :=
  inferInstanceAs (Decidable (_ ∨ _))

theorem LeavesUnder.inj (h : LeavesUnder id key) (h' : LeavesUnder id' key) : id = id' := by
  rcases h with rfl | rfl <;> rcases h' with h' | h'
  · exact keyOf_inj h'
  · simpa using congrArg ninth h'
  · simpa using congrArg ninth h'
  · exact keyOf_inj h'

theorem LeavesUnder.ne_observeKey (h : LeavesUnder id key) (sig : String) :
    key ≠ observeKey sig := by
  intro heq
  rcases h with rfl | rfl <;> simpa using congrArg ninth heq

def touchesSuspense (t : LedgerTxn) : Bool := t.entries.any fun e => e.account = suspense

def suspenseTxns (l : Ledger) : List LedgerTxn := l.txns.filter touchesSuspense

def inflows (l : Ledger) (sig : String) : List LedgerTxn :=
  (suspenseTxns l).filter fun t => t.key = observeKey sig

def outflows (l : Ledger) (id : DepositId) : List LedgerTxn :=
  (suspenseTxns l).filter fun t => LeavesUnder id t.key

theorem suspenseTxns_of_extends (h : Extends IsSuspense l l') :
    suspenseTxns l' = suspenseTxns l := by
  obtain ⟨extra, htxns, hbeside⟩ := h.added
  have hnone : extra.filter touchesSuspense = [] := by
    simp only [List.filter_eq_nil_iff, touchesSuspense, List.any_eq_true, decide_eq_true_eq,
      not_exists, not_and]
    exact hbeside
  rw [suspenseTxns, htxns, List.filter_append, hnone, List.append_nil]
  rfl

theorem balanceOf_of_extends (h : Extends IsSuspense l l') (hl : Journal l) :
    l'.balanceOf suspense = l.balanceOf suspense := by
  obtain ⟨extra, htxns, hbeside⟩ := h.added
  have hzero : (extra.map fun t => delta t.entries suspense).sum = 0 := by
    refine List.sum_eq_zero fun x hx => ?_
    obtain ⟨t, ht, rfl⟩ := List.mem_map.1 hx
    refine delta_eq_zero fun hmem => ?_
    obtain ⟨e, he, hsuspense⟩ := List.mem_map.1 hmem
    exact hbeside t ht e he hsuspense
  rw [(h.journal hl).balanceOf, hl.balanceOf, htxns, List.map_append, List.sum_append, hzero,
    add_zero]

section Flows

variable {t : LedgerTxn} (h : suspenseTxns l' = suspenseTxns l ++ [t])
include h

theorem inflows_concat (sig : String) :
    inflows l' sig = inflows l sig ++ if t.key = observeKey sig then [t] else [] := by
  rw [inflows, h, List.filter_append, List.filter_singleton]
  simp [inflows]

theorem outflows_concat (id : DepositId) :
    outflows l' id = outflows l id ++ if LeavesUnder id t.key then [t] else [] := by
  rw [outflows, h, List.filter_append, List.filter_singleton]
  simp [outflows]

end Flows

section Posted

theorem Posted.journal (h : Posted l kind key entries l') (hl : Journal l) : Journal l' := by
  obtain ⟨mid, mid', hpre, happlied, hpost⟩ := h
  exact hpost.journal ((hpre.journal hl).applied happlied)

theorem Posted.suspenseTxns (h : Posted l kind key entries l')
    (htouch : touchesSuspense ⟨key, kind, entries⟩) :
    suspenseTxns l' = suspenseTxns l ++ [⟨key, kind, entries⟩] := by
  obtain ⟨mid, mid', hpre, happlied, hpost⟩ := h
  rw [suspenseTxns_of_extends hpost, ← suspenseTxns_of_extends hpre, Deposit.suspenseTxns,
    happlied.txns, List.filter_append, List.filter_cons_of_pos htouch, List.filter_nil]
  rfl

theorem Posted.fresh (h : Posted l kind key entries l') : ∀ t ∈ Deposit.suspenseTxns l,
    t.key ≠ key := by
  obtain ⟨mid, mid', hpre, happlied, hpost⟩ := h
  intro t ht hkey
  obtain ⟨extra, htxns, -⟩ := hpre.added
  refine happlied.fresh (hkey ▸ List.mem_map_of_mem ?_)
  rw [htxns]
  exact List.mem_append_left _ (List.mem_filter.1 ht).1

theorem Posted.balanceOf (h : Posted l kind key entries l') (hl : Journal l) :
    l'.balanceOf suspense = l.balanceOf suspense + delta entries suspense := by
  obtain ⟨mid, mid', hpre, happlied, hpost⟩ := h
  rw [balanceOf_of_extends hpost ((hpre.journal hl).applied happlied), happlied.balanceOf,
    balanceOf_of_extends hpre hl]

end Posted

/-- How a deposit stands to the transactions that took it out of suspense: none while
it is a liability, and afterwards exactly the one its status and its columns name. -/
def Left (row : DepositMachineRow) (outs : List LedgerTxn) : Prop :=
  match row.status with
  | .admitted => row.admitTx = some (admitKey row.id) ∧ row.refundTx = none ∧
      ∃ user, row.user = some user ∧
        outs = [⟨admitKey row.id, .deposit, admitEntries user row.amount⟩]
  | .refunded => row.admitTx = none ∧ row.refundTx = some (refundKey row.id) ∧
      outs = [⟨refundKey row.id, .withdrawal, refundEntries row.amount⟩]
  | .admittedLegacy => False
  | _ => row.admitTx = none ∧ row.refundTx = none ∧ outs = []

def liabilities (db : DepositDb) : Int :=
  ((db.deposits.filter fun r => isSuspenseLiability r.status).map DepositMachineRow.amount).sum

def changesOf (db : DepositDb) (id : DepositId) : List StatusChange :=
  db.changes.filter fun c => c.deposit = id

structure Conserved (db : DepositDb) : Prop where
  ids : (db.deposits.map DepositMachineRow.id).Nodup
  sigs : (db.deposits.map DepositMachineRow.chainSig).Nodup
  journal : Journal db.ledger
  balance : db.ledger.balanceOf suspense = liabilities db
  entered : ∀ row ∈ db.deposits, inflows db.ledger row.chainSig =
    [⟨observeKey row.chainSig, .deposit, observeEntries row.amount⟩]
  left : ∀ row ∈ db.deposits, Left row (outflows db.ledger row.id)
  owned : ∀ t ∈ suspenseTxns db.ledger, ∃ row ∈ db.deposits,
    t.key = observeKey row.chainSig ∨ LeavesUnder row.id t.key
  changed : ∀ c ∈ db.changes, c.deposit ∈ db.deposits.map DepositMachineRow.id
  paths : ∀ row ∈ db.deposits, path .observedFinalized (changesOf db row.id) = some row.status

theorem liabilities_eq (db : DepositDb) : liabilities db =
    (db.deposits.map fun r => if isSuspenseLiability r.status then r.amount else 0).sum :=
  sum_filter (fun r : DepositMachineRow => isSuspenseLiability r.status) _ _

theorem conserved_empty : Conserved DepositDb.empty where
  ids := List.nodup_nil
  sigs := List.nodup_nil
  journal := journal_empty
  balance := rfl
  entered := by simp [DepositDb.empty]
  left := by simp [DepositDb.empty]
  owned := by simp [DepositDb.empty, Ledger.empty, suspenseTxns]
  changed := by simp [DepositDb.empty]
  paths := by simp [DepositDb.empty]

theorem Left.of_liability (h : Left row outs) (hstatus : isSuspenseLiability row.status) :
    row.admitTx = none ∧ row.refundTx = none ∧ outs = [] := by
  rw [Left] at h
  cases hs : row.status <;> rw [hs] at h hstatus <;> first | exact h | contradiction

theorem left_of_liability (hstatus : isSuspenseLiability row.status)
    (hadmitTx : row.admitTx = none) (hrefund : row.refundTx = none) (houts : outs = []) :
    Left row outs := by
  rw [Left]
  cases hs : row.status <;> rw [hs] at hstatus <;>
    first | exact ⟨hadmitTx, hrefund, houts⟩ | contradiction

theorem Conserved.quiet (h : Conserved db) (hledger : Extends IsSuspense db.ledger db'.ledger)
    (hdeposits : db'.deposits = db.deposits) (hchanges : db'.changes = db.changes) :
    Conserved db' := by
  obtain ⟨hids, hsigs, hjournal, hbalance, hentered, hleft, howned, hchanged, hpaths⟩ := h
  have htxns := suspenseTxns_of_extends hledger
  refine ⟨?_, ?_, hledger.journal hjournal, ?_, ?_, ?_, ?_, ?_, ?_⟩
  · rwa [hdeposits]
  · rwa [hdeposits]
  · rw [balanceOf_of_extends hledger hjournal, hbalance, liabilities, liabilities, hdeposits]
  · rw [hdeposits]
    intro row hrow
    rw [inflows, htxns]
    exact hentered row hrow
  · rw [hdeposits]
    intro row hrow
    rw [outflows, htxns]
    exact hleft row hrow
  · rwa [htxns, hdeposits]
  · rwa [hchanges, hdeposits]
  · rw [hdeposits]
    intro row hrow
    rw [changesOf, hchanges]
    exact hpaths row hrow

theorem Conserved.observed (h : Conserved db)
    (hbooked : Posted db.ledger .deposit (observeKey row.chainSig) (observeEntries row.amount)
      db'.ledger) (hstatus : row.status = .observedFinalized)
    (hunmarked : row.admitTx = none ∧ row.refundTx = none)
    (hid : row.id ∉ db.deposits.map DepositMachineRow.id)
    (hsig : row.chainSig ∉ db.deposits.map DepositMachineRow.chainSig)
    (hdeposits : db'.deposits = db.deposits ++ [row]) (hchanges : db'.changes = db.changes) :
    Conserved db' := by
  have htxns := hbooked.suspenseTxns (by simp [touchesSuspense, observeEntries])
  have hin := inflows_concat htxns
  have hout : ∀ id, outflows db'.ledger id = outflows db.ledger id := by
    intro id
    rw [outflows_concat htxns, if_neg fun hleaves => hleaves.ne_observeKey _ rfl, List.append_nil]
  have hnoIn : inflows db.ledger row.chainSig = [] := by
    simpa [inflows] using hbooked.fresh
  -- whatever left suspense belongs to a deposit that was there before
  have hnoOut : outflows db.ledger row.id = [] := by
    rw [outflows, List.filter_eq_nil_iff]
    intro t ht
    obtain ⟨r, hr, hkey⟩ := h.owned t ht
    have hne : r.id ≠ row.id := fun heq => hid (heq ▸ List.mem_map_of_mem hr)
    rw [decide_eq_true_eq]
    intro hleaves
    rcases hkey with hkey | hkey
    · exact hleaves.ne_observeKey _ hkey
    · exact hne (hkey.inj hleaves)
  have hold : ∀ r ∈ db.deposits, r.chainSig ≠ row.chainSig := fun r hr heq =>
    hsig (heq ▸ List.mem_map_of_mem hr)
  refine ⟨?_, ?_, hbooked.journal h.journal, ?_, ?_, ?_, ?_, ?_, ?_⟩
  · rw [hdeposits, List.map_append, List.map_singleton]
    simpa using h.ids.concat hid
  · rw [hdeposits, List.map_append, List.map_singleton]
    simpa using h.sigs.concat hsig
  · rw [hbooked.balanceOf h.journal, h.balance, liabilities_eq, liabilities_eq, hdeposits,
      List.map_append, List.sum_append]
    simp [observeEntries, suspense, cash, hstatus, isSuspenseLiability]
  · rw [hdeposits, List.forall_mem_append, List.forall_mem_singleton]
    refine ⟨fun r hr => ?_, ?_⟩
    · rw [hin, if_neg fun heq => hold r hr (observeKey_inj heq).symm, List.append_nil]
      exact h.entered r hr
    · rw [hin, if_pos rfl, hnoIn, List.nil_append]
  · rw [hdeposits, List.forall_mem_append, List.forall_mem_singleton]
    refine ⟨fun r hr => ?_, ?_⟩
    · rw [hout]
      exact h.left r hr
    · rw [hout]
      exact left_of_liability (by rw [hstatus]; rfl) hunmarked.1 hunmarked.2 hnoOut
  · rw [htxns, hdeposits, List.forall_mem_append, List.forall_mem_singleton]
    refine ⟨fun t ht => ?_, row, by simp, .inl rfl⟩
    obtain ⟨r, hr, hkey⟩ := h.owned t ht
    exact ⟨r, List.mem_append_left _ hr, hkey⟩
  · rw [hchanges, hdeposits, List.map_append]
    exact fun c hc => List.mem_append_left _ (h.changed c hc)
  · rw [hdeposits, List.forall_mem_append, List.forall_mem_singleton]
    refine ⟨fun r hr => ?_, ?_⟩
    · rw [changesOf, hchanges]
      exact h.paths r hr
    · have hnone : changesOf db' row.id = [] := by
        rw [changesOf, hchanges, List.filter_eq_nil_iff]
        intro c hc
        rw [decide_eq_true_eq]
        exact fun heq => hid (heq ▸ h.changed c hc)
      rw [hnone, hstatus]
      rfl

/-- A row moves while its suspense transactions, at most, grow by one of its own. -/
structure Shift (db : DepositDb) (row next : DepositMachineRow) (db' : DepositDb) : Prop where
  moved : Moved db row next db'
  amount : next.amount = row.amount
  chainSig : next.chainSig = row.chainSig
  journal : Journal db'.ledger
  balance : db'.ledger.balanceOf suspense = db.ledger.balanceOf suspense +
    ((if isSuspenseLiability next.status then row.amount else 0) -
      if isSuspenseLiability row.status then row.amount else 0)
  entered : ∀ sig, inflows db'.ledger sig = inflows db.ledger sig
  others : ∀ id, id ≠ row.id → outflows db'.ledger id = outflows db.ledger id
  owned : ∀ t ∈ suspenseTxns db'.ledger, t ∈ suspenseTxns db.ledger ∨ LeavesUnder row.id t.key
  left : Left next (outflows db'.ledger row.id)

theorem Moved.mem_next (h : Moved db row next db') (hr : r ∈ db'.deposits) :
    r = next ∨ (r ∈ db.deposits ∧ r.id ≠ row.id) := by
  rw [h.deposits, mem_update] at hr
  obtain ⟨r₀, hr₀, rfl⟩ := hr
  split_ifs with hid
  · exact .inl rfl
  · exact .inr ⟨hr₀, hid⟩

theorem Moved.map_eq {α : Type} (h : Moved db row next db')
    (hids : (db.deposits.map DepositMachineRow.id).Nodup) {g : DepositMachineRow → α}
    (hg : g next = g row) : db'.deposits.map g = db.deposits.map g := by
  rw [h.deposits, update, List.map_map]
  refine List.map_congr_left fun r hr => ?_
  dsimp only [Function.comp_apply]
  split_ifs with hid
  · have hsame := find_of_mem hids hr
    rw [hid] at hsame
    rw [hg, Option.mem_unique h.found hsame]
  · rfl

theorem Moved.kept (h : Moved db row next db') (hids : (db.deposits.map DepositMachineRow.id).Nodup)
    (hsig : next.chainSig = row.chainSig) (hr : r ∈ db.deposits) :
    ∃ r' ∈ db'.deposits, (r'.chainSig, r'.id) = (r.chainSig, r.id) := by
  have hmap := h.map_eq hids (g := fun r => (r.chainSig, r.id)) (by rw [hsig, h.id])
  have hpair : (r.chainSig, r.id) ∈ db.deposits.map fun r => (r.chainSig, r.id) :=
    List.mem_map_of_mem hr
  rw [← hmap] at hpair
  exact List.mem_map.1 hpair

theorem changesOf_append {owner : DepositId} (h : db'.changes = db.changes ++ cs)
    (hown : ∀ c ∈ cs, c.deposit = owner) (id : DepositId) :
    changesOf db' id = changesOf db id ++ if owner = id then cs else [] := by
  rw [changesOf, h, List.filter_append]
  congr 1
  split_ifs with heq
  · exact List.filter_eq_self.2 fun c hc => decide_eq_true ((hown c hc).trans heq)
  · refine List.filter_eq_nil_iff.2 fun c hc => ?_
    rwa [decide_eq_true_eq, hown c hc]

theorem Conserved.shift (h : Conserved db) (hs : Shift db row next db') : Conserved db' := by
  have hmem : row ∈ db.deposits := mem_of_find hs.moved.found
  have hids := hs.moved.ids
  obtain ⟨cs, hchanges, hown, hpath⟩ := hs.moved.changes
  refine ⟨?_, ?_, hs.journal, ?_, ?_, ?_, ?_, ?_, ?_⟩
  · rw [hids]
    exact h.ids
  · rw [hs.moved.map_eq h.ids hs.chainSig]
    exact h.sigs
  · rw [hs.balance, h.balance, liabilities_eq, liabilities_eq, hs.moved.deposits,
      sum_update h.ids hs.moved.found, hs.amount]
  · intro r hr
    rw [hs.entered]
    rcases hs.moved.mem_next hr with rfl | ⟨hr, -⟩
    · rw [hs.chainSig, hs.amount]
      exact h.entered row hmem
    · exact h.entered r hr
  · intro r hr
    rcases hs.moved.mem_next hr with rfl | ⟨hr, hne⟩
    · rw [hs.moved.id]
      exact hs.left
    · rw [hs.others r.id hne]
      exact h.left r hr
  · intro t ht
    rcases hs.owned t ht with ht | ht
    · obtain ⟨r, hr, hkey⟩ := h.owned t ht
      obtain ⟨r', hr', hsame⟩ := hs.moved.kept h.ids hs.chainSig hr
      rw [Prod.mk.injEq] at hsame
      rw [← hsame.1, ← hsame.2] at hkey
      exact ⟨r', hr', hkey⟩
    · exact ⟨next, mem_of_find (hs.moved.found_next h.ids), .inr (hs.moved.id ▸ ht)⟩
  · rw [hchanges, hids, List.forall_mem_append]
    refine ⟨h.changed, fun c hc => ?_⟩
    rw [hown c hc]
    exact List.mem_map_of_mem hmem
  · intro r hr
    rw [changesOf_append hchanges hown]
    rcases hs.moved.mem_next hr with rfl | ⟨hr, hne⟩
    · rw [if_pos hs.moved.id.symm, hs.moved.id, path_append (h.paths row hmem), hpath]
    · rw [if_neg hne.symm, List.append_nil]
      exact h.paths r hr

section Shifts

variable (h : Conserved db) (hstart : isSuspenseLiability row.status = true)
include h hstart

theorem shift_of_stayed (hmoved : Moved db row { row with status := stop } db')
    (hledger : Extends IsSuspense db.ledger db'.ledger) (hstop : isSuspenseLiability stop = true) :
    Shift db row { row with status := stop } db' := by
  have htxns := suspenseTxns_of_extends hledger
  obtain ⟨hadmitTx, hrefund, houts⟩ := (h.left row (mem_of_find hmoved.found)).of_liability hstart
  refine ⟨hmoved, rfl, rfl, hledger.journal h.journal, ?_, ?_, ?_, ?_, ?_⟩
  · rw [balanceOf_of_extends hledger h.journal, if_pos hstart, if_pos hstop, sub_self, add_zero]
  · intro sig
    rw [inflows, htxns]
    rfl
  · intro id _
    rw [outflows, htxns]
    rfl
  · rw [htxns]
    exact fun t ht => .inl ht
  · refine left_of_liability hstop hadmitTx hrefund ?_
    rwa [outflows, htxns]

/-- A liability that leaves suspense under one of its keys. -/
theorem shift_of_posted (hmoved : Moved db row next db') (hamount : next.amount = row.amount)
    (hsig : next.chainSig = row.chainSig) (hbooked : Posted db.ledger kind key entries db'.ledger)
    (hkey : LeavesUnder row.id key) (htouch : touchesSuspense ⟨key, kind, entries⟩)
    (hdelta : delta entries suspense = -row.amount)
    (hstop : isSuspenseLiability next.status = false) (hleft : Left next [⟨key, kind, entries⟩]) :
    Shift db row next db' := by
  have htxns := hbooked.suspenseTxns htouch
  obtain ⟨-, -, houts⟩ := (h.left row (mem_of_find hmoved.found)).of_liability hstart
  refine ⟨hmoved, hamount, hsig, hbooked.journal h.journal, ?_, ?_, ?_, ?_, ?_⟩
  · rw [hbooked.balanceOf h.journal, hdelta, hstop, if_pos hstart]
    simp
  · intro sig
    rw [inflows_concat htxns, if_neg (hkey.ne_observeKey sig), List.append_nil]
  · intro id hne
    rw [outflows_concat htxns, if_neg fun hother => hne (hother.inj hkey), List.append_nil]
  · rw [htxns, List.forall_mem_append, List.forall_mem_singleton]
    exact ⟨fun t ht => .inl ht, .inr hkey⟩
  · rwa [outflows_concat htxns, if_pos hkey, houts]

end Shifts

theorem Effect.conserved (heffect : Effect db db') (h : Conserved db) : Conserved db' := by
  cases heffect with
  | quiet hledger hdeposits hchanges => exact h.quiet hledger hdeposits hchanges
  | observed row hbooked hstatus _ htxns hid hsig hdeposits hchanges =>
    exact h.observed hbooked hstatus htxns.2 hid hsig hdeposits hchanges
  | stayed row stop hledger hmoved hstart hstop =>
    exact h.shift (shift_of_stayed h hstart hmoved hledger hstop)
  | admitted row user howner hbooked hstart hunmarked hmoved =>
    refine h.shift (shift_of_posted h hstart hmoved rfl rfl hbooked (.inl rfl) ?_ ?_ rfl ?_)
    · simp [touchesSuspense, admitEntries]
    · simp [admitEntries, suspense, cash]
    · exact ⟨rfl, hunmarked.2, user, howner, rfl⟩
  | refunded row hbooked hstart hunmarked hmoved =>
    refine h.shift (shift_of_posted h hstart hmoved rfl rfl hbooked (.inr rfl) ?_ ?_ rfl ?_)
    · simp [touchesSuspense, refundEntries]
    · simp [refundEntries, suspense, cash]
    · exact ⟨hunmarked.1, rfl, rfl⟩

theorem conserved_run (hash : String → String) (cmds : List Command) :
    Conserved (run (DepositDb.step hash) DepositDb.empty cmds) :=
  run_preserves (fun _ _ _ _ h hstep => (DepositDb.step_effect h.ids hstep).conserved h)
    conserved_empty

theorem Effect.positive (heffect : Effect db db') (hpos : ∀ row ∈ db.deposits, 0 < row.amount) :
    ∀ row ∈ db'.deposits, 0 < row.amount := by
  have hmoved : ∀ {row next : DepositMachineRow}, Moved db row next db' →
      next.amount = row.amount → ∀ r ∈ db'.deposits, 0 < r.amount := by
    intro row next hm hamount r hr
    rcases hm.mem_next hr with rfl | ⟨hr, -⟩
    · rw [hamount]
      exact hpos row (mem_of_find hm.found)
    · exact hpos r hr
  cases heffect with
  | quiet _ hdeposits => rwa [hdeposits]
  | observed row _ _ hpositive _ _ _ hdeposits =>
    rw [hdeposits, List.forall_mem_append, List.forall_mem_singleton]
    exact ⟨hpos, hpositive⟩
  | stayed _ _ _ hm | admitted _ _ _ _ _ _ hm | refunded _ _ _ _ hm => exact hmoved hm rfl

theorem positive_run (hash : String → String) (cmds : List Command) :
    ∀ row ∈ (run (DepositDb.step hash) DepositDb.empty cmds).deposits, 0 < row.amount := by
  refine (run_preserves (P := fun db => Conserved db ∧ ∀ row ∈ db.deposits, 0 < row.amount)
    (fun _ _ _ _ h hstep => ?_) ⟨conserved_empty, by simp [DepositDb.empty]⟩).2
  have heffect := DepositDb.step_effect h.1.ids hstep
  exact ⟨heffect.conserved h.1, heffect.positive h.2⟩

theorem legal_of_path {start : DepositMachineStatus} (h : path start cs = some stop) :
    ∀ c ∈ cs, legalDepositTransition c.start c.stop := by
  induction cs generalizing start with
  | nil => simp
  | cons c cs ih =>
    rw [path] at h
    split_ifs at h with hc
    rw [List.forall_mem_cons, hc.1]
    exact ⟨hc.2, ih h⟩

/-- In every reachable state suspense holds what has not left it, every deposit entered
it once and left it at most once, and every status write is an edge. -/
theorem suspense_conserved (hash : String → String) (cmds : List Command) :
    let db := run (DepositDb.step hash) DepositDb.empty cmds
    Conserved db ∧ (∀ sig, (inflows db.ledger sig).length ≤ 1) ∧
      ∀ c ∈ db.changes, legalDepositTransition c.start c.stop = true := by
  intro db
  have h := conserved_run hash cmds
  refine ⟨h, fun sig => ?_, fun c hc => ?_⟩
  · by_cases hsig : sig ∈ db.deposits.map DepositMachineRow.chainSig
    · obtain ⟨row, hrow, rfl⟩ := List.mem_map.1 hsig
      rw [h.entered row hrow, List.length_singleton]
    · rw [inflows, List.filter_eq_nil_iff.2, List.length_nil]
      · exact Nat.zero_le 1
      · intro t ht
        rw [decide_eq_true_eq]
        intro hkey
        obtain ⟨row, hrow, hbooked | hleft⟩ := h.owned t ht
        · exact hsig (observeKey_inj (hkey.symm.trans hbooked) ▸ List.mem_map_of_mem hrow)
        · exact hleft.ne_observeKey sig hkey
  · obtain ⟨row, hrow, hid⟩ := List.mem_map.1 (h.changed c hc)
    refine legal_of_path (h.paths row hrow) c (List.mem_filter.2 ⟨hc, ?_⟩)
    rw [decide_eq_true_eq, hid]

end Opinions.Deposit
