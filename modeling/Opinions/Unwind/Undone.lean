import Opinions.Unwind.Postings

/-! What a confirmation writes, read backwards: the legs of the reversal and their posting,
the receivables it opens, and the pass that zeroes the positions. -/

namespace Opinions.Unwind

open Lib.Result Lib.Rows Domain.Market Model Store Trade Credit Ops Payout

theorem World.find_saveUnwind (w : World) (u : MarketUnwind) (m : MarketId) :
    find MarketUnwind.market m (w.saveUnwind u).unwinds =
      (find MarketUnwind.market m w.unwinds).map fun row =>
        if m = u.market then
          { row with stage := u.stage, confirmerTokenId := u.confirmerTokenId
                     reversalTxn := u.reversalTxn }
        else row := by
  have hkept : ∀ row : MarketUnwind, MarketUnwind.market { row with
      stage := u.stage, confirmerTokenId := u.confirmerTokenId
      reversalTxn := u.reversalTxn } = row.market := fun _ => rfl
  dsimp only [World.saveUnwind]
  by_cases h : m = u.market
  · subst h
    simp only [find_update_self hkept, if_true]
  · simp only [find_update_of_ne hkept h, if_neg h, Option.map_id']

variable {w : World} {u : MarketUnwind} {m : MarketId} {shortfalls : List (UserId × Int)}
  {key txn : String} {now : Instant} {policy : UnwindPolicy} {w' : World}

/-- A saved stage decides for its own market only. -/
theorem World.unwound_saveUnwind (hfound : (find MarketUnwind.market u.market w.unwinds).isSome)
    (m : MarketId) :
    (w.saveUnwind u).Unwound m ↔ if m = u.market then u.stage = .applied else w.Unwound m := by
  obtain ⟨row, hrow⟩ := Option.isSome_iff_exists.1 hfound
  unfold World.Unwound
  rw [World.find_saveUnwind]
  by_cases h : m = u.market
  · subst h
    simp [hrow]
  · simp [h]

structure Opens (m : MarketId) (txn : String) (shortfalls : List (UserId × Int))
    (opened : List Receivable) : Prop where
  amounts : opened.map (fun r => (r.user, r.openedMicro)) = shortfalls
  ofMarket : ∀ r ∈ opened, r.market = m ∧ r.originReversalTxn = txn

variable {facts : UnwindFacts} {confirmer : String}

theorem foldlM_openReceivable {acc acc' : List Receivable × List ReceivableMovement}
    (h : shortfalls.foldlM (openReceivable facts m txn confirmer) acc = .ok acc') :
    ∃ opened, acc'.1 = acc.1 ++ opened ∧ Opens m txn shortfalls opened := by
  induction shortfalls generalizing acc with
  | nil =>
    rw [List.foldlM_nil, pure_eq_ok] at h
    exact ⟨[], by simp [h], rfl, by simp⟩
  | cons s shortfalls ih =>
    rw [List.foldlM_cons, bind_eq_ok] at h
    obtain ⟨mid, hmid, hrest⟩ := h
    obtain ⟨opened, hopened, hopens⟩ := ih hrest
    unfold openReceivable at hmid
    split_ifs at hmid with hpos
    simp only [ok_iff] at hmid
    obtain ⟨_, -, _, -, rfl⟩ := hmid
    refine ⟨_ :: opened, by rw [hopened, List.append_assoc]; rfl, ?_, ?_⟩
    · rw [List.map_cons, hopens.amounts]
    · intro r hr
      rcases List.mem_cons.1 hr with rfl | hr
      · exact ⟨rfl, rfl⟩
      · exact hopens.ofMarket r hr

/-- The receivables of one user among those opened. -/
theorem Opens.ofUser {opened : List Receivable} (h : Opens m txn shortfalls opened) (user : UserId) :
    (opened.filter fun r => r.user = user).map Receivable.openedMicro =
      (shortfalls.filter fun s => s.1 = user).map Prod.snd := by
  rw [← h.amounts, List.filter_map, List.map_map]
  rfl

structure ZeroedOut (key : String) (now : Instant) (rows : List PositionRow) (s s' : Store) :
    Prop where
  kept : s' = { s with positions := s'.positions, realizations := s'.realizations }
  nodup : (s'.positions.map Store.positionKey).Nodup
  mem : ∀ q ∈ s'.positions, q ∈ s.positions ∨ ∃ p ∈ rows, q = zeroed p
  total : ∀ (P : UserId × OutcomeId → Bool) (g : PositionRow → Int),
    totalOver P g s'.positions = totalOver P g s.positions +
      (rows.map fun p => if P (Store.positionKey p) then g (zeroed p) - g p else 0).sum
  facts : s'.realizations =
    s.realizations ++ rows.filterMap fun p => unwindRealization p (some key) now

theorem insertRealization_fresh {facts : List RealizationFact} {fact : RealizationFact}
    (h : ∀ f ∈ facts, f.ledgerKey = fact.ledgerKey →
      (f.user, f.outcome) ≠ (fact.user, fact.outcome)) :
    insertRealization facts fact = facts ++ [fact] := by
  unfold insertRealization
  rw [if_neg]
  intro hany
  obtain ⟨f, hf, heq⟩ := List.any_eq_true.1 hany
  obtain ⟨hkey, huser, houtcome⟩ := of_decide_eq_true heq
  exact h f hf hkey (Prod.ext huser houtcome)

theorem unwindRealization_spec {p : PositionRow} {f : RealizationFact}
    (h : unwindRealization p (some key) now = some f) :
    f.ledgerKey = key ∧ (f.user, f.outcome) = Store.positionKey p ∧
      f.realizedDelta = -p.realizedPnl := by
  unfold unwindRealization at h
  split_ifs at h
  cases h
  exact ⟨rfl, rfl, rfl⟩

theorem foldl_zeroPosition {rows : List PositionRow} {s : Store}
    (hnd : (s.positions.map Store.positionKey).Nodup) (hrows : (rows.map Store.positionKey).Nodup)
    (hmem : ∀ p ∈ rows, p ∈ s.positions) (hfresh : ∀ f ∈ s.realizations, f.ledgerKey = key →
      (f.user, f.outcome) ∉ rows.map Store.positionKey) :
    ZeroedOut key now rows s (rows.foldl (zeroPosition (some key) now) s) := by
  induction rows generalizing s with
  | nil => exact ⟨rfl, hnd, fun q hq => Or.inl hq, fun P g => by simp, by simp⟩
  | cons p rows ih =>
    rw [List.map_cons, List.nodup_cons] at hrows
    have hp := hmem p List.mem_cons_self
    have hfind : find Store.positionKey (Store.positionKey p) s.positions = some p :=
      find_of_mem hnd hp
    -- the fact of this position is new, so it is appended
    have hreal : (zeroPosition (some key) now s p).realizations =
        s.realizations ++ (unwindRealization p (some key) now).toList := by
      unfold zeroPosition
      dsimp only
      cases hf : unwindRealization p (some key) now with
      | none => simp
      | some =>
        obtain ⟨hkey, howner, -⟩ := unwindRealization_spec hf
        refine insertRealization_fresh fun f' hf' hkey' => ?_
        rw [howner]
        intro heq
        exact hfresh f' hf' (hkey'.trans hkey) (by rw [heq]; exact List.mem_cons_self)
    have hstep := ih (s := zeroPosition (some key) now s p) (nodup_upsert hnd) hrows.2 ?_ ?_
    · rw [List.foldl_cons]
      refine ⟨hstep.kept, hstep.nodup, fun q hq => ?_, fun P g => ?_, ?_⟩
      · rcases hstep.mem q hq with hq | ⟨p', hp', rfl⟩
        · rcases mem_of_mem_upsert hq with rfl | hq
          · exact Or.inr ⟨p, List.mem_cons_self, rfl⟩
          · exact Or.inl hq
        · exact Or.inr ⟨p', List.mem_cons_of_mem p hp', rfl⟩
      · have hkey : Store.positionKey (zeroed p) = Store.positionKey p := rfl
        rw [hstep.total, zeroPosition, totalOver_upsert hnd, hkey, hfind, List.map_cons,
          List.sum_cons, add_assoc]
        rfl
      · rw [hstep.facts, hreal, List.append_assoc, List.filterMap_cons]
        cases unwindRealization p (some key) now <;> rfl
    · intro q hq
      have hne : Store.positionKey q ≠ Store.positionKey (zeroed p) := fun heq =>
        hrows.1 (heq ▸ List.mem_map_of_mem hq)
      have hqs := find_of_mem hnd (hmem q (List.mem_cons_of_mem p hq))
      have hkept : find Store.positionKey (Store.positionKey q)
          (upsert Store.positionKey (zeroed p) s.positions) =
          find Store.positionKey (Store.positionKey q) s.positions := find_upsert_of_ne hne
      exact mem_of_find (hkept.trans hqs)
    · intro f hf hkey
      rw [hreal] at hf
      rcases List.mem_append.1 hf with hf | hf
      · exact fun hin => hfresh f hf hkey (List.mem_cons_of_mem _ hin)
      · obtain ⟨-, howner, -⟩ := unwindRealization_spec (Option.mem_toList.1 hf)
        rw [howner]
        exact hrows.1

/-- The compensating facts of a user in a market. -/
theorem factsOf_unwindRealization (user : UserId) (m : MarketId) (key : String) (now : Instant)
    (rows : List PositionRow) :
    factsOf user m (rows.filterMap fun p => unwindRealization p (some key) now) =
      -totalOver (Payout.ofUser user m) PositionRow.realizedPnl rows := by
  unfold totalOver
  induction rows with
  | nil => rfl
  | cons p rows ih =>
    rw [List.map_cons, List.sum_cons, List.filterMap_cons]
    by_cases hzero : p.realizedPnl = 0
    · simp only [unwindRealization, hzero, ne_eq, not_true, if_false, ite_self] at ih ⊢
      rw [ih]
      omega
    · have hfact : unwindRealization p (some key) now = some
          { ledgerKey := key, user := p.user, outcome := p.outcome, realizedDelta := -p.realizedPnl
            payout := 0, createdAt := now } := if_pos hzero
      rw [hfact]
      have hcons := factsOf_append user m [(⟨key, p.user, p.outcome, -p.realizedPnl, 0, now⟩ :
        RealizationFact)] (rows.filterMap fun p => unwindRealization p (some key) now)
      refine hcons.trans ?_
      rw [ih]
      have hiff : Payout.ofUser user m (Store.positionKey p) = true ↔
          p.user = user ∧ p.outcome.market = m := decide_eq_true_iff
      simp only [factsOf, hiff, List.map_cons, List.map_nil, List.sum_cons, List.sum_nil]
      split_ifs <;> omega

theorem perm_positionsForMarket (s : Store) (m : MarketId) :
    (positionsForMarket s m).Perm (s.positions.filter fun p => p.outcome.market = m) :=
  List.perm_insertionSort _ _

/-- A total over the positions of a market, over the rows that are zeroed. -/
theorem totalOver_positionsForMarket (s : Store) (user : UserId) (m : MarketId)
    (g : PositionRow → Int) :
    totalOver (Payout.ofUser user m) g (positionsForMarket s m) =
      totalOver (Payout.ofUser user m) g s.positions := by
  unfold totalOver
  rw [((perm_positionsForMarket s m).map _).sum_eq, sum_filter]
  congr 1
  refine List.map_congr_left fun p _ => ?_
  by_cases hm : p.outcome.market = m <;> simp [Payout.ofUser, Store.positionKey, hm]

def reversalKey (m : MarketId) (legs : Legs) : Option String :=
  if legs.entries = [] then none else some (unwindLedgerKey m)

def undoneStore (facts : UnwindFacts) (m : MarketId) (legs : Legs) (ledger : Ledger) (s : Store) :
    Store :=
  (positionsForMarket s m).foldl (zeroPosition (reversalKey m legs) facts.now)
    { s with ledger := ledger }

def undoneBook (facts : UnwindFacts) (m : MarketId) (state : MarketState) (legs : Legs)
    (ledger : Ledger) (b : Book) : Book :=
  (({ b with store := undoneStore facts m legs ledger b.store }).setMarketState m state).setColumn
    (unwoundColumns facts.now (b.column m))

structure Undone (facts : UnwindFacts) (row : MarketRow) (u : MarketUnwind) (confirmer : String)
    (w : World) (w' : World) where
  legs : Legs
  ledger : Ledger
  lineage : List ReversedTxn
  receivables : List Receivable
  movements : List ReceivableMovement
  state : MarketState
  reversed : reversal w.ledger row.id = .ok legs
  posted : postReversal row.id legs.entries (w.ledger.account (cash .house)) = .ok ledger
  opened : openReceivables facts row.id (reversalKey row.id legs) confirmer legs.shortfalls
    (w.receivables, w.movements) = .ok (receivables, movements)
  result : w' = ({ w with
    book := undoneBook facts row.id state legs ledger w.book, receivables := receivables
    movements := movements, lineage := lineage }).saveUnwind
    { u with stage := .applied, confirmerTokenId := some confirmer
             reversalTxn := reversalKey row.id legs }

theorem unwind_cases {row : MarketRow} {u' : MarketUnwind}
    (h : w.unwind policy facts row u confirmer = .ok (u', w')) :
    u'.stage = .applied ∧ Nonempty (Undone facts row u confirmer w w') := by
  simp only [World.unwind, ok_iff] at h
  obtain ⟨_, -, _, -, _, -, _, -, legs, hlegs, ledger, hledger, lineage, -,
    ⟨receivables, movements⟩, hopened, state, -, _, -, rfl, rfl⟩ := h
  exact ⟨rfl, ⟨⟨legs, ledger, lineage, receivables, movements, state, hlegs, hledger, hopened, rfl⟩⟩⟩

/-- A confirmation found the unwind applied, let it expire, or applied it. -/
inductive Confirmed (facts : UnwindFacts) (m : MarketId) (confirmer : String) (w : World)
    (answer : Except OpsError MarketUnwind) (w' : World) : Prop
  | replayed (u : MarketUnwind) (found : find MarketUnwind.market m w.unwinds = some u)
      (stage : u.stage = .applied) (answered : answer = .ok u) (same : w' = w)
  | expired (u : MarketUnwind) (found : find MarketUnwind.market m w.unwinds = some u)
      (stage : u.stage = .proposed) (refused : ∀ x, answer ≠ .ok x)
      (result : w' = w.saveUnwind { u with stage := .expired })
  | applied (u : MarketUnwind) (found : find MarketUnwind.market m w.unwinds = some u)
      (stage : u.stage = .proposed) (row : MarketRow) (listed : w.book.store.market m = some row)
      (undone : Nonempty (Undone facts row u confirmer w w'))

theorem confirm_cases {cmd : UnwindCmd} {answer : Except OpsError MarketUnwind}
    (h : w.confirm policy facts cmd confirmer = .ok (answer, w')) :
    Confirmed facts cmd.market confirmer w answer w' := by
  simp only [World.confirm, ok_iff] at h
  obtain ⟨row, hrow, u, hu, h⟩ := h
  by_cases happlied : u.stage = .applied
  · rw [if_pos happlied, pure_eq_ok, Prod.mk.injEq] at h
    exact .replayed u hu happlied h.1.symm h.2.symm
  · simp only [if_neg happlied, not_not, ok_iff] at h
    obtain ⟨_, hstage, _, -, _, -, h⟩ := h
    split_ifs at h
    · cases h
      exact .expired u hu hstage (by simp) rfl
    · simp only [ok_iff] at h
      obtain ⟨⟨u', w₁⟩, hunwind, -, rfl⟩ := h
      exact .applied u hu hstage row hrow (unwind_cases hunwind).2

end Opinions.Unwind
