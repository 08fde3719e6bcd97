import Opinions.Domain.Posting

/-! Histories of the ledger. Along every sequence of openings and transactions
from the empty balances, each currency sums to zero, only External goes below
zero, and External and the money singletons stay unique per currency. A rejected
command changes nothing, and the outcome depends on no iteration order. -/

namespace Opinions.Domain.Ledger

open Lib.Checked Lib.Rows

variable {α : Type} [DecidableEq α]

/-- One call: open an account, or build and apply a transaction. -/
inductive Command (α : Type)
  | openAccount (account : α) (owner : OwnerType) (currency : Currency)
  | apply (kind : TxnKind) (entries : EntryVec α) (traversal : Traversal α)

/-- The same call, up to the order in which `apply` walks its scratch maps. -/
inductive Command.Same : Command α → Command α → Prop
  | openAccount (account : α) (owner : OwnerType) (currency : Currency) :
      Same (.openAccount account owner currency) (.openAccount account owner currency)
  | apply (kind : TxnKind) (entries : EntryVec α) (t t' : Traversal α) :
      Same (.apply kind entries t) (.apply kind entries t')

namespace Balances

def transact (b : Balances α) (kind : TxnKind) (entries : EntryVec α) (t : Traversal α) :
    Except (LedgerError α) Unit × Balances α :=
  match Transaction.new kind entries with
  | .error e => (.error e, b)
  | .ok txn => b.apply t txn

def step (b : Balances α) : Command α → Except (LedgerError α) Unit × Balances α
  | .openAccount account owner currency => b.openAccount account owner currency
  | .apply kind entries t => b.transact kind entries t

/-- The balances after a sequence of calls on the empty map. -/
def history (cmds : List (Command α)) : Balances α :=
  cmds.foldl (fun b cmd => (b.step cmd).2) (empty α)

def total (b : Balances α) (c : Currency) : Int :=
  (b.rows.map fun r => if r.currency = c then r.balance else 0).sum

structure Sound (b : Balances α) : Prop where
  zero_sum : ∀ c, b.total c = 0
  nonneg : ∀ r ∈ b.rows, r.owner ≠ .external → 0 ≤ r.balance
  sole : ∀ r ∈ b.rows, ∀ r' ∈ b.rows, IsSole r.owner → r.owner = r'.owner →
    r.currency = r'.currency → r.id = r'.id

/-- The same accounts and balances, in whatever order the map holds them. -/
def Same (b b' : Balances α) : Prop := b.rows.Perm b'.rows

omit [DecidableEq α] in
theorem sound_empty : (empty α).Sound :=
  ⟨fun _ => rfl, by simp [empty], by simp [empty]⟩

variable {b : Balances α}

theorem sound_openAccount (hb : b.Sound) (account : α) (owner : OwnerType) (currency : Currency) :
    (b.openAccount account owner currency).2.Sound := by
  rcases b.openAccount_cases account owner currency with h | ⟨hrows, hfresh⟩
  · rwa [h]
  · refine ⟨fun c => ?_, ?_, ?_⟩
    · have := hb.zero_sum c
      unfold total at this ⊢
      rw [hrows, List.map_append, List.sum_append, this]
      simp
    · rw [hrows]
      intro r hr hne
      rcases mem_concat.1 hr with hr | rfl
      · exact hb.nonneg r hr hne
      · exact le_rfl
    · rw [hrows]
      intro r hr r' hr' hsole howner hcur
      rcases List.mem_append.1 hr with hr | hr <;> rcases List.mem_append.1 hr' with hr' | hr'
      · exact hb.sole r hr r' hr' hsole howner hcur
      · obtain rfl := List.mem_singleton.1 hr'
        rw [howner] at hsole
        exact absurd hcur (hfresh hsole r hr howner)
      · obtain rfl := List.mem_singleton.1 hr
        exact absurd hcur.symm (hfresh hsole r' hr' howner.symm)
      · rw [List.mem_singleton.1 hr, List.mem_singleton.1 hr']

theorem total_moved (b : Balances α) (entries : List (Entry α)) (c : Currency) :
    (b.moved (delta entries)).total c = b.total c + b.currencySum entries c := by
  unfold total currencySum moved
  rw [List.map_map, ← List.sum_map_add]
  congr 1
  refine List.map_congr_left fun r _ => ?_
  dsimp only [Function.comp_apply]
  split_ifs <;> simp

theorem sound_moved (hb : b.Sound) {entries : List (Entry α)} (h : b.Admits entries) :
    (b.moved (delta entries)).Sound := by
  refine ⟨fun c => ?_, ?_, ?_⟩
  · rw [total_moved, hb.zero_sum, h.balanced, add_zero]
  · intro r' hr' hne
    obtain ⟨r, hr, rfl⟩ := List.mem_map.1 hr'
    by_cases ht : r.id ∈ entries.map Entry.account
    · exact h.funded r hr ht hne
    · have := hb.nonneg r hr hne
      dsimp only
      rwa [delta_eq_zero ht, add_zero]
  · intro x hx y hy hsole howner hcur
    obtain ⟨r, hr, rfl⟩ := List.mem_map.1 hx
    obtain ⟨r', hr', rfl⟩ := List.mem_map.1 hy
    exact hb.sole r hr r' hr' hsole howner hcur

/-- The transaction is well formed and may be posted. -/
def Postable (b : Balances α) (kind : TxnKind) (entries : EntryVec α) : Prop :=
  (∃ txn, Transaction.new kind entries = .ok txn) ∧ b.Admits entries.list

theorem transact_of_postable {kind : TxnKind} {entries : EntryVec α} (t : Traversal α)
    (h : b.Postable kind entries) :
    b.transact kind entries t = (.ok (), b.moved (delta entries.list)) := by
  obtain ⟨⟨txn, hnew⟩, hadm⟩ := h
  have he := entries_of_new hnew
  simp only [transact, hnew]
  rw [← he] at hadm ⊢
  exact apply_of_admits t hadm

theorem transact_of_not_postable {kind : TxnKind} {entries : EntryVec α} (t : Traversal α)
    (h : ¬b.Postable kind entries) :
    ∃ e, b.transact kind entries t = (.error e, b) := by
  unfold transact
  cases hnew : Transaction.new kind entries with
  | error e => exact ⟨e, rfl⟩
  | ok txn =>
    have he := entries_of_new hnew
    exact apply_of_not_admits t fun hadm => h ⟨⟨txn, hnew⟩, he ▸ hadm⟩

theorem sound_step (hb : b.Sound) (cmd : Command α) : (b.step cmd).2.Sound := by
  cases cmd with
  | openAccount account owner currency => exact sound_openAccount hb account owner currency
  | apply kind entries t =>
    rw [step]
    by_cases h : b.Postable kind entries
    · rw [transact_of_postable t h]
      exact sound_moved hb h.2
    · obtain ⟨e, he⟩ := transact_of_not_postable t h
      rwa [he]

theorem sound_history (cmds : List (Command α)) : (history cmds).Sound :=
  List.foldlRecOn cmds _ sound_empty fun _ hb cmd _ => sound_step hb cmd

variable {b' : Balances α}

theorem step_error {cmd : Command α} {e : LedgerError α} (h : b.step cmd = (.error e, b')) :
    b' = b := by
  cases cmd with
  | openAccount =>
    rw [step, openAccount] at h
    split_ifs at h
    · cases h
    · exact (Prod.mk.inj h).2.symm
    · exact (Prod.mk.inj h).2.symm
    · cases h
  | apply kind entries t =>
    rw [step] at h
    by_cases hp : b.Postable kind entries
    · rw [transact_of_postable t hp] at h
      cases h
    · obtain ⟨e', he'⟩ := transact_of_not_postable t hp
      rw [he'] at h
      exact (Prod.mk.inj h).2.symm

theorem Same.admits (h : b.Same b') {entries : List (Entry α)} (hb : b.Admits entries) :
    b'.Admits entries where
  opened := fun e he => (h.map Account.id).mem_iff.1 (hb.opened e he)
  balanced := fun c => (h.map _).sum_eq.symm.trans (hb.balanced c)
  fits := fun r hr => hb.fits r (h.mem_iff.2 hr)
  funded := fun r hr => hb.funded r (h.mem_iff.2 hr)

omit [DecidableEq α] in
theorem Same.symm (h : b.Same b') : b'.Same b := List.Perm.symm h

theorem Same.postable_iff (h : b.Same b') (kind : TxnKind) (entries : EntryVec α) :
    b.Postable kind entries ↔ b'.Postable kind entries :=
  ⟨fun hp => ⟨hp.1, h.admits hp.2⟩, fun hp => ⟨hp.1, h.symm.admits hp.2⟩⟩

theorem Same.openAccount (h : b.Same b') (account : α) (owner : OwnerType) (currency : Currency) :
    (b.openAccount account owner currency).1 = (b'.openAccount account owner currency).1 ∧
    (b.openAccount account owner currency).2.Same (b'.openAccount account owner currency).2 := by
  unfold Balances.openAccount
  simp only [(List.Perm.map Account.id h).mem_iff, List.Perm.mem_iff h]
  split_ifs
  · exact ⟨rfl, h⟩
  · exact ⟨rfl, h⟩
  · exact ⟨rfl, h⟩
  · exact ⟨rfl, List.Perm.append_right _ h⟩

theorem Same.step (h : b.Same b') {cmd cmd' : Command α} (hc : cmd.Same cmd') :
    (b.step cmd).1.isOk = (b'.step cmd').1.isOk ∧ (b.step cmd).2.Same (b'.step cmd').2 := by
  cases hc with
  | openAccount account owner currency =>
    obtain ⟨h1, h2⟩ := h.openAccount account owner currency
    exact ⟨congrArg Except.isOk h1, h2⟩
  | apply kind entries t t' =>
    rw [Balances.step, Balances.step]
    by_cases hp : b.Postable kind entries
    · rw [transact_of_postable t hp, transact_of_postable t' ((h.postable_iff _ _).1 hp)]
      exact ⟨rfl, List.Perm.map _ h⟩
    · obtain ⟨e, he⟩ := transact_of_not_postable t hp
      obtain ⟨e', he'⟩ := transact_of_not_postable t' (mt (h.postable_iff _ _).2 hp)
      rw [he, he']
      exact ⟨rfl, h⟩

/-- Two histories of the same calls hold the same accounts and balances. -/
theorem Same.history {cmds cmds' : List (Command α)} (h : List.Forall₂ Command.Same cmds cmds') :
    (history cmds).Same (history cmds') := by
  suffices hgen : ∀ b b' : Balances α, b.Same b' →
      (cmds.foldl (fun b cmd => (b.step cmd).2) b).Same
        (cmds'.foldl (fun b cmd => (b.step cmd).2) b') from
    hgen _ _ (List.Perm.refl _)
  induction h with
  | nil => exact fun b b' hb => hb
  | cons hc _ ih => exact fun b b' hb => ih _ _ (hb.step hc).2

/-- After every history the ledger is sound and every rejected call leaves it as
it was. A history of the same calls that met other traversals, with its account
map held in any order, accepts the same calls and leaves the same accounts. -/
theorem history_sound_and_deterministic (cmds : List (Command α)) :
    (history cmds).Sound ∧
    (∀ cmd e b, (history cmds).step cmd = (.error e, b) → b = history cmds) ∧
    ∀ (cmds' : List (Command α)) (b : Balances α) (cmd cmd' : Command α),
      List.Forall₂ Command.Same cmds' cmds → b.Same (history cmds') → cmd.Same cmd' →
      (b.step cmd).1.isOk = ((history cmds).step cmd').1.isOk ∧
      (b.step cmd).2.Same ((history cmds).step cmd').2 := by
  refine ⟨sound_history cmds, fun _ _ _ h => step_error h, ?_⟩
  intro cmds' b cmd cmd' hcmds hb hc
  have hsame : b.Same (history cmds) := List.Perm.trans hb (Same.history hcmds)
  exact hsame.step hc

/-- The exact sum over the accounts of a currency other than External. -/
def internalSum (b : Balances α) (c : Currency) : Int :=
  ((b.rows.filter fun r => r.currency = c ∧ r.owner ≠ .external).map Account.balance).sum

/-- What the ledger reports: the sum, or the largest amount when the sum does not fit. -/
def internalTotal (b : Balances α) (c : Currency) : Int :=
  (tryI64 (b.internalSum c)).getD 9223372036854775807

def externalBalance (b : Balances α) (c : Currency) : Int :=
  ((b.rows.find? fun r => r.currency = c ∧ r.owner = .external).map Account.balance).getD 0

def InRange (b : Balances α) : Prop := ∀ r ∈ b.rows, FitsI64 r.balance

theorem inRange_step (hb : b.InRange) (cmd : Command α) : (b.step cmd).2.InRange := by
  cases cmd with
  | openAccount account owner currency =>
    rw [step]
    rcases b.openAccount_cases account owner currency with h | ⟨hrows, -⟩
    · rwa [h]
    · intro r hr
      rw [hrows] at hr
      rcases mem_concat.1 hr with hr | rfl
      · exact hb r hr
      · change FitsI64 0
        decide
  | apply kind entries t =>
    rw [step]
    by_cases h : b.Postable kind entries
    · rw [transact_of_postable t h]
      intro r' hr'
      obtain ⟨r, hr, rfl⟩ := List.mem_map.1 hr'
      by_cases ht : r.id ∈ entries.list.map Entry.account
      · exact h.2.fits r hr ht
      · have := hb r hr
        dsimp only
        rwa [delta_eq_zero ht, add_zero]
    · obtain ⟨e, he⟩ := transact_of_not_postable t h
      rwa [he]

theorem inRange_history (cmds : List (Command α)) : (history cmds).InRange :=
  List.foldlRecOn cmds _ (by simp [InRange, empty]) fun _ hb cmd _ => inRange_step hb cmd

omit [DecidableEq α] in
/-- The accounts of a currency are its External account and the internal ones. -/
theorem total_eq (hb : b.Sound) (c : Currency) :
    b.total c = b.internalSum c + b.externalBalance c := by
  obtain ⟨rows, hnodup⟩ := b
  have hsole : ∀ r ∈ rows, ∀ r' ∈ rows, r.owner = .external → r'.owner = .external →
      r.currency = r'.currency → r.id = r'.id :=
    fun r hr r' hr' h h' => hb.sole r hr r' hr' (.inl h) (h.trans h'.symm)
  clear hb
  simp only [total, internalSum, externalBalance]
  induction rows with
  | nil => rfl
  | cons r rows ih =>
    have hr := (List.nodup_cons.1 hnodup).1
    have := ih (List.nodup_cons.1 hnodup).2 fun x hx y hy =>
      hsole x (List.mem_cons_of_mem r hx) y (List.mem_cons_of_mem r hy)
    by_cases hc : r.currency = c
    · by_cases ho : r.owner = .external
      · -- no External account of the currency follows the first
        have hnone : rows.find? (fun r => r.currency = c ∧ r.owner = .external) = none := by
          rw [List.find?_eq_none]
          intro x hx hext
          obtain ⟨hxc, hxo⟩ := of_decide_eq_true hext
          refine hr (List.mem_map.2 ⟨x, hx, ?_⟩)
          exact hsole x (List.mem_cons_of_mem r hx) r List.mem_cons_self hxo ho (hxc.trans hc.symm)
        rw [hnone] at this
        simp [hc, ho, this, add_comm]
      · simp [hc, ho, this, add_assoc]
    · simp [hc, this]

/-- After every history the internal accounts of a currency sum to the negated External
balance; the reported total is that sum, within the return type, exactly while the
External balance is above the least representable amount. -/
theorem internalTotal_exact_iff (cmds : List (Command α)) (c : Currency) :
    (history cmds).internalSum c = -(history cmds).externalBalance c ∧
    ((history cmds).internalTotal c = (history cmds).internalSum c ∧
        FitsI64 ((history cmds).internalSum c) ↔
      (history cmds).externalBalance c ≠ -9223372036854775808) := by
  have hsum := total_eq (sound_history cmds) c
  rw [(sound_history cmds).zero_sum] at hsum
  have hrange : FitsI64 ((history cmds).externalBalance c) := by
    unfold externalBalance
    cases h : (history cmds).rows.find? fun r => r.currency = c ∧ r.owner = .external with
    | none =>
      change FitsI64 0
      decide
    | some r => exact inRange_history cmds r (List.mem_of_find?_eq_some h)
  have hnn : 0 ≤ (history cmds).internalSum c := by
    refine List.sum_nonneg fun x hx => ?_
    obtain ⟨r, hr, rfl⟩ := List.mem_map.1 hx
    obtain ⟨hmem, hr⟩ := List.mem_filter.1 hr
    exact (sound_history cmds).nonneg r hmem (of_decide_eq_true hr).2
  refine ⟨by omega, fun ⟨_, hfit⟩ heq => ?_, fun hne => ?_⟩
  · have := hfit.2
    omega
  · have hfit : FitsI64 ((history cmds).internalSum c) := by
      have := hrange.1
      constructor <;> omega
    rw [internalTotal, tryI64_of_fits hfit]
    exact ⟨rfl, hfit⟩

/-- Two deposits of `2 ^ 62` take External to the least amount, and the report is a unit
short of what the accounts hold. -/
theorem internalTotal_saturates :
    let b := history [.openAccount 0 .external .usdc, .openAccount 1 .user .usdc,
      .openAccount 2 .user .usdc,
      .apply .deposit ⟨[⟨0, -9223372036854775808⟩, ⟨1, 4611686018427387904⟩,
        ⟨2, 4611686018427387904⟩], by decide, by decide⟩
        ⟨id, id, id, List.Perm.refl, List.Perm.refl, List.Perm.refl⟩]
    b.externalBalance .usdc = -9223372036854775808 ∧
      b.internalSum .usdc = 9223372036854775808 ∧ b.internalTotal .usdc = 9223372036854775807 := by
  decide

end Balances

end Opinions.Domain.Ledger
