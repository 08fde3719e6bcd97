import Opinions.Payout.Carried
import Opinions.Trade.Journal
import Opinions.Unwind.World

/-! What is posted to the accounts of markets. A seed, a trade and a payout post to one
market, in cash, and take from the house at most; everything else leaves the escrows and
pools alone. -/

namespace Opinions.Unwind

open Lib.Result Lib.Rows Domain.Ledger Domain.Market Model Store
open Config Trade Resolve Ops Payout

/-- The transaction posts to the market's escrow or pool. -/
def Touches (m : MarketId) (t : LedgerTxn) : Prop :=
  ∃ e ∈ t.entries, isMarketAccount m e.account = true

variable {l : Ledger} {m : MarketId} {t : LedgerTxn}

theorem mem_marketLedgerTxns : t ∈ marketLedgerTxns l m ↔ t ∈ l.txns ∧ Touches m t := by
  simp [marketLedgerTxns, Touches]

/-- A seed, a trade or a payout of the market. -/
structure Original (m : MarketId) (t : LedgerTxn) : Prop where
  kind : t.kind ≠ .reversal
  own : ∀ e ∈ t.entries, ∀ m', isMarketAccount m' e.account = true → m' = m
  plain : ∀ e ∈ t.entries, e.account.currency = .usdc
  house : ∀ e ∈ t.entries, e.account = cash .house → e.amount ≤ 0

/-- No user is overdrawn. -/
def Solvent (l : Ledger) : Prop := ∀ user, 0 ≤ l.balanceOf (cash (.user user))

variable {l' : Ledger} {kind : TxnKind} {key : String} {entries : List (Entry AccountKey)}

theorem Solvent.applied (hl : Solvent l) (h : l.Applied kind key entries l') : Solvent l' := by
  intro user
  by_cases hk : cash (.user user) ∈ entries.map Entry.account
  · obtain ⟨e, he, hacc⟩ := List.mem_map.1 hk
    obtain ⟨r, hr, hre⟩ := List.mem_map.1 (h.admits.opened e he)
    have hbal : l.balanceOf r.id = r.balance := by
      unfold Ledger.balanceOf Balances.balance Balances.account
      rw [find_of_mem l.balances.nodup hr]
      rfl
    have hid : r.id = cash (.user user) := hre.trans hacc
    have howner : r.owner ≠ .external := by
      rw [(l.keyed r hr).1, hid]
      simp [cash, OwnerRef.ownerType]
    rw [h.balanceOf, ← hid, hbal]
    exact h.admits.funded r hr (hid ▸ hk) howner
  · rw [h.balanceOf, delta_eq_zero hk, add_zero]
    exact hl user

/-- The ledger grew by transactions that are originals of every market they touch. -/
structure Posted (l l' : Ledger) : Prop where
  added : ∃ extra, l'.txns = l.txns ++ extra ∧ ∀ t ∈ extra, ∀ m, Touches m t → Original m t
  journal : Journal l → Journal l'
  solvent : Solvent l → Solvent l'

theorem Posted.refl (l : Ledger) : Posted l l := ⟨⟨[], by simp⟩, id, id⟩

theorem Posted.trans {l₁ l₂ l₃ : Ledger} (h₁ : Posted l₁ l₂) (h₂ : Posted l₂ l₃) :
    Posted l₁ l₃ := by
  obtain ⟨xs, hxs, hxo⟩ := h₁.added
  obtain ⟨ys, hys, hyo⟩ := h₂.added
  refine ⟨⟨xs ++ ys, by rw [hys, hxs, List.append_assoc], fun t ht => ?_⟩,
    fun h => h₂.journal (h₁.journal h), fun h => h₂.solvent (h₁.solvent h)⟩
  rcases List.mem_append.1 ht with ht | ht
  · exact hxo t ht
  · exact hyo t ht

theorem Posted.account (l : Ledger) (k : AccountKey) : Posted l (l.account k) :=
  ⟨⟨[], by simp⟩, fun h => h.account k, fun h user => by
    rw [Ledger.balanceOf_account]
    exact h user⟩

theorem Posted.applied (h : l.ledgerApply kind key entries = .ok l')
    (horig : ∀ m, Touches m ⟨key, kind, entries⟩ → Original m ⟨key, kind, entries⟩) :
    Posted l l' := by
  have ha := Ledger.ledgerApply_spec h
  refine ⟨⟨_, ha.txns, fun t ht => ?_⟩, fun hj => hj.applied ha, fun hs => hs.applied ha⟩
  obtain rfl := List.mem_singleton.1 ht
  exact horig

/-- A transaction off the markets is nobody's original. -/
theorem not_touches (h : ∀ e ∈ t.entries, ¬IsMarket e.account) :
    ¬Touches m t := fun ⟨e, he, hm⟩ => h e he ⟨m, hm⟩

theorem Posted.off (h : l.ledgerApply kind key entries = .ok l')
    (hoff : ∀ e ∈ entries, ¬IsMarket e.account) : Posted l l' :=
  Posted.applied h fun _ htouch => absurd htouch (not_touches hoff)

theorem not_isMarket_of_isIngress {k : AccountKey} (h : IsIngress k) : ¬IsMarket k := by
  obtain ⟨user, hk⟩ := h
  rintro ⟨m, hm⟩
  simp only [ingressAccounts, List.mem_cons, List.not_mem_nil, or_false] at hk
  rcases hk with rfl | rfl | rfl | rfl | rfl <;> simp [isMarketAccount, cash, credit] at hm

theorem issuing_posted : Issuing Posted :=
  ⟨Posted.refl, Posted.trans, Posted.account,
    fun happ hin => Posted.off happ fun e he => not_isMarket_of_isIngress (hin e he)⟩

theorem Posted.openAll (l : Ledger) (entries : List (Entry AccountKey)) :
    Posted l (openAll l entries) := by
  induction entries generalizing l with
  | nil => exact Posted.refl l
  | cons e entries ih => exact (Posted.account l _).trans (ih _)

/-- Entries on users, the fees, one market, and the house where it pays. -/
theorem original_of_accounts (hkind : t.kind ≠ .reversal)
    (h : ∀ e ∈ t.entries, (∃ user, e.account = cash (.user user)) ∨ e.account = cash .fees ∨
      e.account = cash (.marketEscrow m) ∨ e.account = cash (.marketPool m) ∨
      e.account = cash .house ∧ e.amount ≤ 0) {m' : MarketId} (htouch : Touches m' t) :
    Original m' t := by
  have hown : ∀ e ∈ t.entries, ∀ m₀, isMarketAccount m₀ e.account = true → m₀ = m := by
    intro e he m₀ hm₀
    rcases h e he with ⟨user, hk⟩ | hk | hk | hk | ⟨hk, -⟩ <;> rw [hk] at hm₀ <;>
      simp only [isMarketAccount, cash, decide_eq_true_eq, reduceCtorEq, or_false, false_or,
        OwnerRef.marketEscrow.injEq, OwnerRef.marketPool.injEq] at hm₀
    · exact hm₀.symm
    · exact hm₀.symm
  obtain ⟨e₀, he₀, hm'⟩ := htouch
  obtain rfl := hown e₀ he₀ m' hm'
  refine ⟨hkind, hown, fun e he => ?_, fun e he hhouse => ?_⟩
  · rcases h e he with ⟨user, hk⟩ | hk | hk | hk | ⟨hk, -⟩ <;> rw [hk] <;> rfl
  · rcases h e he with ⟨user, hk⟩ | hk | hk | hk | ⟨-, hle⟩
    · simp [hhouse, cash] at hk
    · simp [hhouse, cash] at hk
    · simp [hhouse, cash] at hk
    · simp [hhouse, cash] at hk
    · exact hle

theorem posted_openTradeAccounts (l : Ledger) (cmd : PlaceTradeCmd) (legs : QuotedLegs) :
    Posted l (openTradeAccounts l cmd legs) := by
  unfold openTradeAccounts
  dsimp only
  split_ifs
  · exact ((Posted.account l _).trans (Posted.account _ _)).trans (Posted.account _ _)
  · exact (Posted.account l _).trans (Posted.account _ _)

variable {s s' : Store}

theorem posted_trade {rep : RepConfig} {facts : TradeFacts} {cmd : PlaceTradeCmd}
    (b : Booked rep facts cmd s s') : Posted s.ledger s'.ledger := by
  obtain ⟨version, ledger, pool, fee, _, -, -, hconverted, -, hbooked⟩ := b
  simp only [Trade.bookTrade, ok_iff] at hbooked
  obtain ⟨legs, -, posted, hposted, _, -, -, rfl⟩ := hbooked
  have hingress := (issuing_posted.ingressive cmd.user).convertThenCollect hconverted
  refine (hingress.trans (posted_openTradeAccounts ledger cmd legs)).trans (Posted.applied hposted ?_)
  refine fun m => original_of_accounts (m := cmd.market) (by simp) fun e he => ?_
  rcases List.mem_cons.1 he with rfl | he
  · exact Or.inl ⟨cmd.user, rfl⟩
  rcases List.mem_cons.1 he with rfl | he
  · exact Or.inr (Or.inr (Or.inl rfl))
  · split_ifs at he
    · rw [List.mem_singleton.1 he]
      exact Or.inr (Or.inl rfl)
    · exact absurd he List.not_mem_nil

theorem posted_seed {cmd : SeedMarketCmd} (sd : Store.Seeded cmd s s') :
    Posted s.ledger s'.ledger := by
  obtain ⟨ledger, state, hpos, -, -, -, -, hposted, rfl⟩ := sd
  refine (((Posted.account _ _).trans (Posted.account _ _)).trans (Posted.account _ _)).trans
    (Posted.applied hposted ?_)
  refine fun m => original_of_accounts (m := cmd.marketId) (by simp) fun e he => ?_
  rcases List.mem_pair.1 he with rfl | rfl
  · refine Or.inr (Or.inr (Or.inr (Or.inr ⟨rfl, ?_⟩)))
    dsimp only
    omega
  · exact Or.inr (Or.inr (Or.inl rfl))

theorem posted_paidOut {cfg : ResolveConfig} {facts : ResolveFacts} {market : MarketRow}
    {entered : MarketState} {escrow : Int} {curatorOverride : Option CuratorDecision} {b b' : Book}
    {r : ResolveReceipt} (ht : b.store.Tabled)
    (p : PaidOut cfg facts market entered escrow curatorOverride b r b') :
    Posted b.store.ledger b'.store.ledger := by
  have hcollected : Posted p.posted p.collected := collectPayouts_ledger issuing_posted p.collects
  have hfinal : Posted p.collected p.ledger := by
    have hlast := finalizeCredits_ledger issuing_posted p.finalized
    rwa [p.store_eq ht] at hlast
  have hopen : Posted b.store.ledger ((b.store.ledger.account
      (cash (.marketEscrow market.id))).account (cash .fees)) :=
    (Posted.account _ _).trans (Posted.account _ _)
  rw [p.store_result ht]
  refine ((hopen.trans (Posted.applied p.posts ?_)).trans hcollected).trans hfinal
  refine fun m => original_of_accounts (m := market.id) (by simp) fun e he => ?_
  rcases account_of_settlementEntries p.legs he with ⟨q, hq, hacc⟩ | hacc | hacc
  · rw [hacc]
    rcases p.account_of_payout hq with ⟨user, h⟩ | h
    · exact Or.inl ⟨user, h⟩
    · exact Or.inr (Or.inr (Or.inr (Or.inl h)))
  · exact Or.inr (Or.inl hacc)
  · exact Or.inr (Or.inr (Or.inl hacc))

theorem posted_market {c : Trade.Command} (hclear : Clear (.market c)) (hstep : s.step c = .ok s') :
    Posted s.ledger s'.ledger := by
  cases c with
  | seed =>
    rcases Store.seedMarket_cases hstep with rfl | hseeded
    · exact Posted.refl _
    · obtain ⟨sd⟩ := hseeded
      exact posted_seed sd
  | trade =>
    obtain ⟨receipt, htrade⟩ := map_snd_eq_ok.1 hstep
    rcases placeTrade_cases htrade with ⟨-, rfl⟩ | ⟨booked, -⟩
    · exact Posted.refl _
    · exact posted_trade booked
  | advance =>
    simp only [Store.step, ok_iff] at hstep
    obtain ⟨_, -, _, -, rfl⟩ := hstep
    exact Posted.refl _
  | post =>
    simp only [Store.step, ok_iff] at hstep
    obtain ⟨ledger, hl, rfl⟩ := hstep
    exact (Posted.openAll _ _).trans (Posted.off hl hclear)

theorem step_posted {b b' : Book} {c : Payout.Command} (hclear : Clear c) (ht : b.store.Tabled)
    (hstep : b.step c = .ok b') : Posted b.store.ledger b'.store.ledger := by
  cases step_moved hstep with
  | market c store stepped => exact posted_market hclear stepped
  | vote cfg facts cmd ledger votes converted =>
    exact (issuing_posted.ingressive cmd.user).convertThenCollect converted
  | quiet | held => exact Posted.refl _
  | paid _ _ _ _ _ _ _ _ _ paid => exact posted_paidOut ht paid

end Opinions.Unwind
