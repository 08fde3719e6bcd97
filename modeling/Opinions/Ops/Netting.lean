import Opinions.Ops.Reversal

/-! The reversal of a market in closed form. `taken` is what the market's transactions did
to an account together. Every account but the house's is given its negation, where a user
pays no more than their cash; the house is given its own negation back and covers, in a
leg of its own, what the users could not pay. -/

namespace Opinions.Ops

open Lib.Checked Lib.Result Lib.Rows Lib.Tally Domain.Ledger Model Store Trade

/-- What the market's transactions did to an account. -/
def taken (l : Ledger) (m : MarketId) (k : AccountKey) : Int :=
  ((marketLedgerTxns l m).map fun t => delta t.entries k).sum

/-- What is booked on an account that is to be given `p.2`. -/
def booked (l : Ledger) (p : AccountKey × Int) : Int :=
  match p.1.owner with
  | .user _ => max p.2 (-max (l.balanceOf p.1) 0)
  | _ => p.2

def legOf (l : Ledger) (p : AccountKey × Int) : List (Entry AccountKey) :=
  if booked l p = 0 then [] else [⟨p.1, booked l p⟩]

/-- What a user is left owing. -/
def shortOf (l : Ledger) (p : AccountKey × Int) : List (UserId × Int) :=
  match p.1.owner with
  | .user user => if p.2 < booked l p then [(user, booked l p - p.2)] else []
  | _ => []

variable {net : List (AccountKey × Int)} {net' : List (AccountKey × Int)} {legs' : Legs}
  {m : MarketId} {e : Entry AccountKey}

theorem foldlM_subtractEntry {entries : List (Entry AccountKey)}
    (h : entries.foldlM subtractEntry net = .ok net') (hnd : (net.map Prod.fst).Nodup) :
    (net'.map Prod.fst).Nodup ∧ (∀ k, amount k net' = amount k net - delta entries k) ∧
      ∀ k ∈ net'.map Prod.fst, k ∈ net.map Prod.fst ∨ k ∈ entries.map Entry.account := by
  induction entries generalizing net with
  | nil =>
    cases h
    exact ⟨hnd, fun k => by simp, fun k hk => Or.inl hk⟩
  | cons e entries ih =>
    rw [List.foldlM_cons, bind_eq_ok] at h
    obtain ⟨mid, hmid, hrest⟩ := h
    simp only [subtractEntry, tryI64_eq_some, ok_iff] at hmid
    obtain ⟨_, ⟨rfl, -⟩, rfl⟩ := hmid
    obtain ⟨hnd', hamount, hkeys⟩ := ih hrest (nodup_put hnd _ _)
    refine ⟨hnd', fun k => ?_, fun k hk => ?_⟩
    · rw [hamount, amount_put, delta_cons]
      by_cases hk : k = e.account
      · rw [if_pos hk, if_pos hk.symm, hk]
        omega
      · rw [if_neg hk, if_neg (Ne.symm hk)]
        omega
    · rcases hkeys k hk with hk | hk
      · rcases mem_keys_put.1 hk with rfl | hk
        · exact Or.inr (by simp)
        · exact Or.inl hk
      · exact Or.inr (List.mem_cons_of_mem _ hk)

theorem foldlM_subtractTxn {txns : List LedgerTxn} (h : txns.foldlM subtractTxn net = .ok net') :
    (txns.flatMap LedgerTxn.entries).foldlM subtractEntry net = .ok net' := by
  induction txns generalizing net with
  | nil => exact h
  | cons t txns ih =>
    simp only [List.foldlM_cons, subtractTxn, bind_eq_ok] at h
    obtain ⟨mid, ⟨_, -, hmid⟩, hrest⟩ := h
    rw [List.flatMap_cons, List.foldlM_append, bind_eq_ok]
    exact ⟨mid, hmid, ih hrest⟩

variable {p : AccountKey × Int} {l : Ledger} {legs : Legs}

theorem reverseLeg_eq (h : reverseLeg l legs p = .ok legs') :
    legs' = ⟨legs.entries ++ legOf l p, legs.shortfalls ++ shortOf l p⟩ := by
  obtain ⟨⟨owner, currency⟩, owed⟩ := p
  by_cases hzero : owed = 0
  · subst hzero
    simp only [reverseLeg, if_true, pure_eq_ok] at h
    subst h
    cases owner <;> simp [legOf, shortOf, booked]
  · simp only [reverseLeg, if_neg hzero] at h
    cases owner with
    | user user =>
      have hbooked : booked l (⟨.user user, currency⟩, owed) =
          max owed (-max (l.balanceOf ⟨.user user, currency⟩) 0) := rfl
      dsimp only at h
      split_ifs at h with hneg
      · simp only [debitUser, tryI64_eq_some, ok_iff] at h
        obtain ⟨_, ⟨rfl, -⟩, rfl⟩ := h
        simp only [legOf, shortOf, hbooked, Legs.mk.injEq]
        constructor
        · split_ifs <;> simp <;> omega
        · split_ifs <;> simp <;> omega
      · cases h
        have hself : max owed (-max (l.balanceOf ⟨.user user, currency⟩) 0) = owed := by omega
        simp [legOf, shortOf, hbooked, hself, hzero]
    | _ =>
      cases h
      simp [legOf, shortOf, booked, hzero]

theorem foldlM_reverseLeg (h : net.foldlM (reverseLeg l) legs = .ok legs') :
    legs' = ⟨legs.entries ++ net.flatMap (legOf l), legs.shortfalls ++ net.flatMap (shortOf l)⟩ := by
  induction net generalizing legs with
  | nil =>
    rw [List.foldlM_nil, pure_eq_ok] at h
    simp [← h]
  | cons p net ih =>
    rw [List.foldlM_cons, bind_eq_ok] at h
    obtain ⟨mid, hmid, hrest⟩ := h
    rw [ih hrest, reverseLeg_eq hmid]
    simp

theorem shortfallTotal_eq {shortfalls : List (UserId × Int)} {total : Int}
    (h : shortfallTotal shortfalls = .ok total) : total = (shortfalls.map Prod.snd).sum := by
  have hsum : ∀ start, shortfalls.foldlM (fun total p => okOr (tryI64 (total + p.2))
      AppError.overflow) start = .ok total → total = start + (shortfalls.map Prod.snd).sum := by
    clear h
    induction shortfalls with
    | nil =>
      intro start h
      rw [List.foldlM_nil, pure_eq_ok] at h
      simp [h]
    | cons p shortfalls ih =>
      intro start h
      simp only [List.foldlM_cons, tryI64_eq_some, ok_iff] at h
      obtain ⟨_, ⟨rfl, -⟩, hrest⟩ := h
      rw [ih _ hrest, List.map_cons, List.sum_cons]
      omega
  simpa using hsum 0 h

/-- The legs of a reversal: every account but the house's, what the house gets back, and
what it covers. -/
structure Netted (l : Ledger) (m : MarketId) (legs : Legs) where
  net : List (AccountKey × Int)
  nodup : (net.map Prod.fst).Nodup
  amount_net : ∀ k, amount k net = -taken l m k
  touched : ∀ k ∈ net.map Prod.fst, ∃ t ∈ marketLedgerTxns l m, k ∈ t.entries.map Entry.account
  shortfalls : legs.shortfalls = (net.filter fun p => p.1 ≠ cash .house).flatMap (shortOf l)
  entries : legs.entries = (net.filter fun p => p.1 ≠ cash .house).flatMap (legOf l) ++
    (if -taken l m (cash .house) ≠ 0 then [⟨cash .house, -taken l m (cash .house)⟩] else []) ++
    (if 0 < (legs.shortfalls.map Prod.snd).sum then
      [⟨cash .house, -(legs.shortfalls.map Prod.snd).sum⟩] else [])

theorem reversal_netted (h : reversal l m = .ok legs) : Nonempty (Netted l m legs) := by
  simp only [reversal, ok_iff] at h
  obtain ⟨net, hnet, body, hbody, total, htotal, rfl⟩ := h
  obtain ⟨hnd, hamount, hkeys⟩ := foldlM_subtractEntry (foldlM_subtractTxn hnet) List.nodup_nil
  have hamount' : ∀ k, amount k net = -taken l m k := fun k => by
    rw [hamount, delta_flatMap]
    simp [amount, taken]
  have hclosed := foldlM_reverseLeg hbody
  rw [shortfallTotal_eq htotal]
  subst hclosed
  refine ⟨⟨net, hnd, hamount', fun k hk => ?_, by simp, ?_⟩⟩
  · simpa only [List.map_nil, List.not_mem_nil, false_or, List.map_flatMap, List.mem_flatMap]
      using hkeys k hk
  · simp only [hamount', List.nil_append]

theorem account_of_mem_legOf (h : e ∈ legOf l p) : e.account = p.1 := by
  unfold legOf at h
  split_ifs at h
  · exact absurd h List.not_mem_nil
  · rw [List.mem_singleton.1 h]

theorem delta_flatMap_legOf (l : Ledger) (net : List (AccountKey × Int)) (k : AccountKey) :
    delta (net.flatMap (legOf l)) k = (net.map fun p => if p.1 = k then booked l p else 0).sum := by
  rw [delta_flatMap]
  refine congrArg List.sum (List.map_congr_left fun p _ => ?_)
  unfold legOf
  by_cases hzero : booked l p = 0
  · rw [if_pos hzero, hzero, ite_self]
    rfl
  · rw [if_neg hzero, delta_cons, delta_nil, add_zero]

theorem booked_zero (l : Ledger) (k : AccountKey) : booked l (k, 0) = 0 := by
  unfold booked
  split <;> omega

theorem shortOf_zero (l : Ledger) (k : AccountKey) : shortOf l (k, 0) = [] := by
  unfold shortOf
  rw [booked_zero]
  split <;> simp

namespace Netted

variable {k : AccountKey}

/-- The net of an account, as the pair the loop met. -/
theorem pair_of_find (n : Netted l m legs) (h : find Prod.fst k n.net = some p) :
    p = (k, -taken l m k) := by
  have hamount := n.amount_net k
  rw [amount, h] at hamount
  exact Prod.ext (key_of_find h) hamount

theorem taken_of_find_none (n : Netted l m legs) (h : find Prod.fst k n.net = none) :
    -taken l m k = 0 := by
  rw [← n.amount_net k, amount, h]
  rfl

theorem delta_entries (n : Netted l m legs) (hk : k ≠ cash .house) :
    delta legs.entries k = booked l (k, -taken l m k) := by
  have hhouse : ∀ a : Int, delta [(⟨cash .house, a⟩ : Entry AccountKey)] k = 0 := by
    intro a
    rw [delta_cons, if_neg (Ne.symm hk), delta_nil, add_zero]
  have hrest : ∀ (P : Prop) [Decidable P] (a : Int),
      delta (if P then [(⟨cash .house, a⟩ : Entry AccountKey)] else []) k = 0 := by
    intro P _ a
    split_ifs
    · exact hhouse a
    · rfl
  have hpoint : ∀ p : AccountKey × Int,
      (if decide (p.1 ≠ cash .house) then (if p.1 = k then booked l p else 0) else 0) =
        if p.1 = k then booked l p else 0 := by
    intro p
    by_cases hp : p.1 = k
    · simp [hp, hk]
    · simp [hp]
  rw [n.entries, delta_append, delta_append, hrest, hrest, add_zero, add_zero, delta_flatMap_legOf,
    sum_filter]
  simp only [hpoint]
  rw [sum_single n.nodup]
  cases hf : find Prod.fst k n.net with
  | none => rw [n.taken_of_find_none hf, booked_zero]; rfl
  | some => rw [n.pair_of_find hf]; rfl

/-- What one user is left owing, when every posting is of cash. -/
theorem shortfalls_of (n : Netted l m legs)
    (hcash : ∀ t ∈ marketLedgerTxns l m, ∀ e ∈ t.entries, e.account.currency = .usdc)
    (user : UserId) :
    legs.shortfalls.filter (fun s => s.1 = user) =
      shortOf l (cash (.user user), -taken l m (cash (.user user))) := by
  have hpoint : ∀ p ∈ n.net.filter fun p => p.1 ≠ cash .house,
      (shortOf l p).filter (fun s => s.1 = user) =
        if p.1 = cash (.user user) then shortOf l p else [] := by
    intro p hp
    obtain ⟨hp, -⟩ := List.mem_filter.1 hp
    obtain ⟨t, ht, hacc⟩ := n.touched p.1 (List.mem_map_of_mem hp)
    obtain ⟨e, he, hacc⟩ := List.mem_map.1 hacc
    have hcurrency := hcash t ht e he
    rw [hacc] at hcurrency
    obtain ⟨⟨owner, currency⟩, owed⟩ := p
    obtain rfl : currency = .usdc := hcurrency
    cases owner with
    | user u =>
      by_cases hu : u = user
      · subst hu
        simp only [cash, if_true, shortOf]
        split_ifs <;> simp
      · simp only [cash, shortOf, AccountKey.mk.injEq, OwnerRef.user.injEq, hu, false_and, if_false]
        split_ifs <;> simp [hu]
    | _ => simp [shortOf, cash]
  have hnd : ((n.net.filter fun p => p.1 ≠ cash .house).map Prod.fst).Nodup :=
    n.nodup.sublist (List.filter_sublist.map _)
  have hfind : find Prod.fst (cash (.user user)) (n.net.filter fun p => p.1 ≠ cash .house) =
      find Prod.fst (cash (.user user)) n.net := by
    rw [find_filter_ne, if_neg (by simp [cash])]
  rw [n.shortfalls, List.filter_flatMap, List.flatMap_congr hpoint, flatMap_single hnd, hfind]
  cases hf : find Prod.fst (cash (.user user)) n.net with
  | none => rw [n.taken_of_find_none hf, shortOf_zero]; rfl
  | some => rw [n.pair_of_find hf]; rfl

/-- The only negative leg of the house is the one that covers the shortfalls. -/
theorem negative_house (n : Netted l m legs) (hhouse : taken l m (cash .house) ≤ 0) :
    (legs.entries.filter fun e => e.account = cash .house ∧ e.amount < 0) =
      if 0 < (legs.shortfalls.map Prod.snd).sum then
        [⟨cash .house, -(legs.shortfalls.map Prod.snd).sum⟩] else [] := by
  have hbody : (((n.net.filter fun p => p.1 ≠ cash .house).flatMap (legOf l)).filter
      fun e => e.account = cash .house ∧ e.amount < 0) = [] := by
    refine List.filter_eq_nil_iff.2 fun e he => ?_
    obtain ⟨p, hp, he⟩ := List.mem_flatMap.1 he
    have hne : p.1 ≠ cash .house := by simpa using (List.mem_filter.1 hp).2
    rw [account_of_mem_legOf he]
    simp [hne]
  have hreturned : ((if -taken l m (cash .house) ≠ 0 then
      [(⟨cash .house, -taken l m (cash .house)⟩ : Entry AccountKey)] else []).filter
      fun e => e.account = cash .house ∧ e.amount < 0) = [] := by
    split_ifs
    · simp only [List.filter_eq_nil_iff, List.mem_singleton]
      rintro e rfl
      simp
      omega
    · rfl
  nth_rewrite 1 [n.entries]
  rw [List.filter_append, List.filter_append, hbody, hreturned, List.nil_append, List.nil_append]
  split_ifs with hpos
  · simp [hpos]
  · rfl

/-- A reversal posts to the house and where the market's transactions did. -/
theorem account_of_mem (n : Netted l m legs) (he : e ∈ legs.entries) :
    e.account = cash .house ∨
      ∃ t ∈ marketLedgerTxns l m, e.account ∈ t.entries.map Entry.account := by
  rw [n.entries, List.mem_append, List.mem_append] at he
  rcases he with (he | he) | he
  · obtain ⟨p, hp, he⟩ := List.mem_flatMap.1 he
    rw [account_of_mem_legOf he]
    exact Or.inr (n.touched p.1 (List.mem_map_of_mem (List.mem_filter.1 hp).1))
  all_goals
    split_ifs at he
    · exact Or.inl (by rw [List.mem_singleton.1 he])
    · exact absurd he List.not_mem_nil

theorem entries_ne_nil (n : Netted l m legs) (hhouse : taken l m (cash .house) < 0) :
    legs.entries ≠ [] := by
  have hne : -taken l m (cash .house) ≠ 0 := by omega
  rw [n.entries, if_pos hne]
  simp

end Netted

end Opinions.Ops
