import Opinions.Domain.Ledger

/-! What applying a transaction does, free of its loops. `delta` is the exact
change of an account and `Admits` says when the change is legal; both read the
accounts as a set, so no traversal order enters them. Applying an admitted
transaction moves every account by its delta, and applying any other one is an
error that leaves the balances as they were. -/

namespace Opinions.Domain.Ledger

open Lib.Checked Lib.Result Lib.Rows Lib.Tally

variable {α : Type} [DecidableEq α]

/-- The exact change the entries make to account `a`. -/
def delta (entries : List (Entry α)) (a : α) : Int :=
  (entries.map fun e => if e.account = a then e.amount else 0).sum

namespace Balances

/-- Owners with one account per currency. -/
def IsSole (owner : OwnerType) : Prop := owner = .external ∨ isMoneySingleton owner = true

theorem openAccount_cases (b : Balances α) (account : α) (owner : OwnerType) (currency : Currency) :
    (b.openAccount account owner currency).2 = b ∨
    (b.openAccount account owner currency).2.rows = b.rows ++ [⟨account, owner, currency, 0⟩] ∧
      (IsSole owner → ∀ r ∈ b.rows, r.owner = owner → r.currency ≠ currency) := by
  unfold openAccount
  split_ifs with hopen hext hsole
  · exact .inl rfl
  · exact .inl rfl
  · exact .inl rfl
  · refine .inr ⟨rfl, ?_⟩
    rintro (rfl | hmoney) r hr hro hrc
    · exact hext ⟨rfl, r, hr, hro, hrc⟩
    · exact hsole ⟨hmoney, r, hr, hro, hrc⟩

def currencySum (b : Balances α) (entries : List (Entry α)) (c : Currency) : Int :=
  (b.rows.map fun r => if r.currency = c then delta entries r.id else 0).sum

/-- The entries may be posted: every account is open, every currency balances,
and every touched account ends in range and, if internal, not below zero. -/
structure Admits (b : Balances α) (entries : List (Entry α)) : Prop where
  opened : ∀ e ∈ entries, e.account ∈ b.rows.map Account.id
  balanced : ∀ c, b.currencySum entries c = 0
  fits : ∀ r ∈ b.rows, r.id ∈ entries.map Entry.account →
    FitsI64 (r.balance + delta entries r.id)
  funded : ∀ r ∈ b.rows, r.id ∈ entries.map Entry.account → r.owner ≠ .external →
    0 ≤ r.balance + delta entries r.id

def moved (b : Balances α) (δ : α → Int) : Balances α :=
  { rows := b.rows.map fun r => { r with balance := r.balance + δ r.id }
    nodup := by simpa [List.map_map, Function.comp_def] using b.nodup }

end Balances

variable {b : Balances α} {entries : List (Entry α)} {deltas : List (α × Int)}
  {txn : Transaction α} {p : α × Int} {t : Traversal α} {c : Currency}

theorem delta_eq_zero {a : α} (h : a ∉ entries.map Entry.account) : delta entries a = 0 := by
  refine List.sum_eq_zero fun x hx => ?_
  obtain ⟨e, he, rfl⟩ := List.mem_map.1 hx
  have hne : e.account ≠ a := fun hea => h (hea ▸ List.mem_map_of_mem he)
  exact if_neg hne

@[simp] theorem delta_nil (a : α) : delta ([] : List (Entry α)) a = 0 := rfl

@[simp] theorem delta_cons (e : Entry α) (entries : List (Entry α)) (a : α) :
    delta (e :: entries) a = (if e.account = a then e.amount else 0) + delta entries a := rfl

theorem delta_append (xs ys : List (Entry α)) (a : α) :
    delta (xs ++ ys) a = delta xs a + delta ys a := by
  simp [delta]

theorem delta_flatMap {β : Type*} (xs : List β) (f : β → List (Entry α)) (a : α) :
    delta (xs.flatMap f) a = (xs.map fun x => delta (f x) a).sum := by
  induction xs with
  | nil => rfl
  | cons x xs ih => rw [List.flatMap_cons, delta_append, ih, List.map_cons, List.sum_cons]

omit [DecidableEq α] in
theorem entries_of_new {kind : TxnKind} {entries : EntryVec α}
    (h : Transaction.new kind entries = .ok txn) : txn.entries = entries := by
  unfold Transaction.new at h
  split_ifs at h
  cases h
  rfl

abbrev Aggregated (entries : List (Entry α)) (deltas : List (α × Int)) : Prop :=
  Tallied (fun e : Entry α => (.ok e.account : Except (LedgerError α) α)) Entry.amount entries deltas

theorem Aggregated.amount_eq_delta
    (h : Aggregated entries deltas) (a : α) : amount a deltas = delta entries a := by
  rw [h.amount_eq, sumAt, delta]
  simp [Except.toOption]

theorem Aggregated.mem_iff (h : Aggregated entries deltas) (a : α) :
    a ∈ deltas.map Prod.fst ↔ a ∈ entries.map Entry.account := by
  rw [h.mem_keys]
  simp

theorem Aggregated.snd_eq_delta (h : Aggregated entries deltas) (hp : p ∈ deltas) :
    p.2 = delta entries p.1 := by
  rw [← h.amount_eq_delta, amount, find_of_mem h.nodup hp]
  rfl

omit [DecidableEq α] in
theorem weight_le_of_fits {l : List (Entry α)} (hfits : ∀ e ∈ l, FitsI64 e.amount) :
    weight Entry.amount l ≤ 9223372036854775808 * l.length := by
  induction l with
  | nil => simp
  | cons e l ih =>
    have he := hfits e List.mem_cons_self
    have := ih fun x hx => hfits x (List.mem_cons_of_mem e hx)
    rw [weight_cons, List.length_cons]
    omega

omit [DecidableEq α] in
/-- A vector of machine integers sums inside 128 bits. -/
theorem weight_fitsI128 (v : EntryVec α) : FitsI128 (weight Entry.amount v.list) := by
  have h1 := weight_le_of_fits v.fits
  have h2 := weight_nonneg Entry.amount v.list
  have h3 := v.length_lt
  constructor <;> omega

theorem exists_aggregated (v : EntryVec α) : ∃ deltas,
    tally (fun e => (.ok e.account : Except (LedgerError α) α)) Entry.amount .overflow v.list
      = .ok deltas :=
  tally_total (fun e _ => ⟨e.account, rfl⟩) (weight_fitsI128 v)

namespace Balances

theorem account_isSome {a : α} : (b.account a).isSome ↔ a ∈ b.rows.map Account.id := find_isSome

theorem account_moved (b : Balances α) (δ : α → Int) (a : α) : (b.moved δ).account a =
      (b.account a).map fun r => { r with balance := r.balance + δ r.id } := by
  unfold account moved
  refine find_map fun r => ?_
  rfl

theorem currencyOf_eq_ok :
    b.currencyOf p = .ok c ↔ ∃ r, b.account p.1 = some r ∧ r.currency = c := by
  unfold currencyOf
  cases b.account p.1 <;> simp [Except.map]

theorem toOption_currencyOf :
    (b.currencyOf p).toOption = some c ↔ ∃ r, b.account p.1 = some r ∧ r.currency = c := by
  rw [← currencyOf_eq_ok]
  cases b.currencyOf p <;> simp [Except.toOption]

theorem amount_cons (hp : p.1 ∉ deltas.map Prod.fst) (a : α) :
    amount a (p :: deltas) = amount a deltas + if a = p.1 then p.2 else 0 := by
  unfold amount
  rw [find_cons]
  by_cases h : p.1 = a
  · subst h
    have hnone : find Prod.fst p.1 deltas = none :=
      find_eq_none.2 fun q hq hk => hp (hk ▸ List.mem_map_of_mem hq)
    simp [hnone]
  · simp [h, Ne.symm h]

/-- Summing the deltas by the currency of their accounts is summing the accounts
by their deltas. -/
theorem sumAt_currencyOf (b : Balances α) (c : Currency) (hnd : (deltas.map Prod.fst).Nodup) :
    sumAt b.currencyOf Prod.snd c deltas =
      (b.rows.map fun r => if r.currency = c then amount r.id deltas else 0).sum := by
  induction deltas with
  | nil => simp [sumAt, amount]
  | cons p deltas ih =>
    rw [List.map_cons, List.nodup_cons] at hnd
    have hsplit : (b.rows.map fun r => if r.currency = c then amount r.id (p :: deltas) else 0) =
        b.rows.map fun r => (if r.currency = c then amount r.id deltas else 0) +
          if r.id = p.1 then (if r.currency = c then p.2 else 0) else 0 := by
      refine List.map_congr_left fun r _ => ?_
      rw [amount_cons hnd.1]
      split_ifs <;> simp
    rw [hsplit, List.sum_map_add, ← ih hnd.2, sum_single b.nodup, sumAt, List.map_cons,
      List.sum_cons, ← sumAt, add_comm]
    congr 1
    change (if (b.currencyOf p).toOption = some c then p.2 else 0) = (b.account p.1).elim 0 _
    simp only [toOption_currencyOf]
    cases b.account p.1 <;> simp

theorem post_eq_ok {p q : α × Int} :
    b.post p = .ok q ↔ ∃ r, b.account p.1 = some r ∧ FitsI64 (r.balance + p.2) ∧
      (r.owner ≠ .external → 0 ≤ r.balance + p.2) ∧ q = (p.1, r.balance + p.2) := by
  simp only [post, checkedI128_eq_some, tryI64_eq_some, ok_iff]
  constructor
  · rintro ⟨r, hr, _, ⟨rfl, -⟩, _, ⟨rfl, hfit⟩, _, hfund, rfl⟩
    refine ⟨r, hr, hfit, fun hne => ?_, rfl⟩
    by_contra hneg
    exact hfund ⟨by omega, hne⟩
  · rintro ⟨r, hr, hfit, hfund, rfl⟩
    refine ⟨r, hr, _, ⟨rfl, fitsI128_of_fitsI64 hfit⟩, _, ⟨rfl, hfit⟩, (), ?_, rfl⟩
    rintro ⟨hneg, hne⟩
    have := hfund hne
    omega

/-- Writing the posts sets each listed balance and keeps the others. -/
theorem writeRows_eq {rows : List (Account α)} {posts : List (α × Int)}
    (hnd : (posts.map Prod.fst).Nodup) :
    writeRows rows posts = rows.map fun r =>
      { r with balance := (find Prod.fst r.id posts).elim r.balance Prod.snd } := by
  induction posts generalizing rows with
  | nil => simp [writeRows]
  | cons p posts ih =>
    rw [List.map_cons, List.nodup_cons] at hnd
    rw [writeRows, List.foldl_cons, ← writeRows, ih hnd.2, update, List.map_map]
    refine List.map_congr_left fun r _ => ?_
    simp only [Function.comp_apply, find_cons]
    by_cases h : r.id = p.1
    · have hnone : find Prod.fst p.1 posts = none :=
        find_eq_none.2 fun q hq hk => hnd.1 (hk ▸ List.mem_map_of_mem hq)
      simp [h, hnone]
    · simp [h, Ne.symm h]

theorem currencySum_eq (hd : Aggregated entries deltas) (c : Currency) :
    b.currencySum entries c = sumAt b.currencyOf Prod.snd c deltas := by
  simp only [sumAt_currencyOf b c hd.nodup, hd.amount_eq_delta, currencySum]

/-- The currency check passes exactly when every currency balances. -/
theorem sums_zero_iff {sums : List (Currency × Int)} (hd : Aggregated entries deltas)
    (hs : Tallied b.currencyOf Prod.snd (t.checked deltas) sums) :
    (∀ p ∈ t.sums sums, ¬p.2 ≠ 0) ↔ ∀ c, b.currencySum entries c = 0 := by
  simp only [(t.sums_perm sums).mem_iff, not_not, forall_snd_eq_zero hs.nodup, hs.amount_eq,
    currencySum_eq hd, sumAt_perm _ _ _ (t.checked_perm deltas)]

section Posted

variable {ps : List (α × Int)}

/-- A touched account's post-balance is among the posts, in range and funded. -/
theorem posted_of_touched (hd : Aggregated entries deltas)
    (hps : (t.posted deltas).mapM b.post = .ok ps) {r : Account α} (hr : r ∈ b.rows)
    (htouched : r.id ∈ entries.map Entry.account) :
    FitsI64 (r.balance + delta entries r.id) ∧
    (r.owner ≠ .external → 0 ≤ r.balance + delta entries r.id) ∧
    (r.id, r.balance + delta entries r.id) ∈ ps := by
  obtain ⟨p, hp, hpr⟩ := List.mem_map.1 ((hd.mem_iff r.id).2 htouched)
  obtain ⟨q, hq, hpost⟩ := (mem_of_mapM hps).1 p ((t.posted_perm deltas).mem_iff.2 hp)
  obtain ⟨r', hr', hfit, hfund, rfl⟩ := post_eq_ok.1 hpost
  obtain rfl : r = r' := by
    rw [account, hpr, find_of_mem b.nodup hr] at hr'
    exact Option.some.inj hr'
  rw [hd.snd_eq_delta hp, hpr] at hfit hfund hq
  exact ⟨hfit, hfund, hq⟩

theorem map_fst_posted (hps : (t.posted deltas).mapM b.post = .ok ps) :
    ps.map Prod.fst = (t.posted deltas).map Prod.fst := by
  refine map_eq_of_mapM hps fun p q hpq => ?_
  obtain ⟨r, -, -, -, rfl⟩ := post_eq_ok.1 hpq
  rfl

/-- Writing the posts moves every account by its delta. -/
theorem write_posted (hd : Aggregated entries deltas)
    (hps : (t.posted deltas).mapM b.post = .ok ps) : b.write ps = b.moved (delta entries) := by
  have hkeys : (ps.map Prod.fst).Perm (deltas.map Prod.fst) := by
    rw [map_fst_posted hps]
    exact (t.posted_perm deltas).map Prod.fst
  have hnd : (ps.map Prod.fst).Nodup := hkeys.nodup_iff.2 hd.nodup
  have hrows : writeRows b.rows ps = (b.moved (delta entries)).rows := by
    rw [writeRows_eq hnd]
    refine List.map_congr_left fun r hr => ?_
    by_cases htouched : r.id ∈ entries.map Entry.account
    · rw [find_of_mem (r := (r.id, _)) hnd (posted_of_touched hd hps hr htouched).2.2]
      rfl
    · have hnone : find Prod.fst r.id ps = none := by
        rwa [← Option.not_isSome_iff_eq_none, find_isSome, hkeys.mem_iff, hd.mem_iff]
      rw [hnone, delta_eq_zero htouched, add_zero]
      rfl
  unfold write moved
  congr 1

end Posted

theorem admits_of_posts {ps : List (α × Int)} (h : b.posts t txn = .ok ps) :
    b.Admits txn.entries.list ∧ b.write ps = b.moved (delta txn.entries.list) := by
  simp only [posts, forM_eq_ok, ok_iff] at h
  obtain ⟨deltas, hagg, sums, hsums, _, hzero, hps⟩ := h
  have hd : Aggregated txn.entries.list deltas := tally_spec hagg
  have hs := tally_spec hsums
  refine ⟨⟨fun e he => ?_, (sums_zero_iff hd hs).1 hzero,
    fun r hr ht => (posted_of_touched hd hps hr ht).1,
    fun r hr ht => (posted_of_touched hd hps hr ht).2.1⟩, write_posted hd hps⟩
  obtain ⟨p, hp, hpe⟩ := List.mem_map.1 ((hd.mem_iff e.account).2 (List.mem_map_of_mem he))
  obtain ⟨c, hc⟩ := hs.keyed p ((t.checked_perm deltas).mem_iff.2 hp)
  obtain ⟨r, hr, -⟩ := currencyOf_eq_ok.1 hc
  rw [← hpe, ← account_isSome, hr]
  rfl

theorem posts_of_admits (t : Traversal α)
    (h : b.Admits txn.entries.list) : ∃ ps, b.posts t txn = .ok ps := by
  obtain ⟨deltas, hagg⟩ := exists_aggregated txn.entries
  have hd : Aggregated txn.entries.list deltas := tally_spec hagg
  have hopen : ∀ p ∈ deltas, ∃ r, b.account p.1 = some r := by
    intro p hp
    obtain ⟨e, he, hep⟩ := List.mem_map.1 ((hd.mem_iff p.1).1 (List.mem_map_of_mem hp))
    exact Option.isSome_iff_exists.1 (account_isSome.2 (hep ▸ h.opened e he))
  have hw : FitsI128 (weight Prod.snd (t.checked deltas)) := by
    have h1 := weight_fitsI128 txn.entries
    have h2 := hd.weight_le
    have h3 := weight_nonneg Prod.snd deltas
    rw [weight_perm _ (t.checked_perm deltas)]
    constructor <;> omega
  obtain ⟨sums, hsums⟩ : ∃ sums, tally b.currencyOf Prod.snd .overflow (t.checked deltas)
      = .ok sums := by
    refine tally_total (fun p hp => ?_) hw
    obtain ⟨r, hr⟩ := hopen p ((t.checked_perm deltas).mem_iff.1 hp)
    exact ⟨r.currency, currencyOf_eq_ok.2 ⟨r, hr, rfl⟩⟩
  have hzero := (sums_zero_iff hd (tally_spec hsums)).2 h.balanced
  obtain ⟨ps, hps⟩ : ∃ ps, (t.posted deltas).mapM b.post = .ok ps := by
    refine mapM_total fun p hp => ?_
    have hp' := (t.posted_perm deltas).mem_iff.1 hp
    obtain ⟨r, hr⟩ := hopen p hp'
    have hid : r.id = p.1 := key_of_find hr
    have ht : r.id ∈ txn.entries.list.map Entry.account := by
      rw [hid]
      exact (hd.mem_iff p.1).1 (List.mem_map_of_mem hp')
    have hfit := h.fits r (mem_of_find hr) ht
    have hfund := h.funded r (mem_of_find hr) ht
    rw [hid, ← hd.snd_eq_delta hp'] at hfit hfund
    exact ⟨_, post_eq_ok.2 ⟨r, hr, hfit, hfund, rfl⟩⟩
  refine ⟨ps, ?_⟩
  simp only [posts, forM_eq_ok, ok_iff]
  exact ⟨deltas, hagg, sums, hsums, (), hzero, hps⟩

/-- Applying an admitted transaction moves every account by its delta. -/
theorem apply_of_admits (t : Traversal α) (h : b.Admits txn.entries.list) :
    b.apply t txn = (.ok (), b.moved (delta txn.entries.list)) := by
  obtain ⟨ps, hps⟩ := posts_of_admits t h
  simp only [apply, hps, (admits_of_posts hps).2]

/-- Applying any other transaction is an error and writes nothing. -/
theorem apply_of_not_admits (t : Traversal α)
    (h : ¬b.Admits txn.entries.list) : ∃ e, b.apply t txn = (.error e, b) := by
  cases hp : b.posts t txn with
  | error e => exact ⟨e, by simp only [apply, hp]⟩
  | ok => exact absurd (admits_of_posts hp).1 h

end Balances

end Opinions.Domain.Ledger
