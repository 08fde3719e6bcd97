import Opinions.Domain.Resolution

/-! Settlement as a whole (`settle_market` in `domain/src/resolution.rs`). A list of
holdings settles exactly when it presents every minted share, and then the payouts
are fair: they follow the holdings through any reordering, an account gains
nothing by splitting a holding, and none is paid above its redemption value. -/

namespace Opinions.Domain.Resolution

open Lib.Checked Lib.Result Domain.Amm

variable {α : Type} {holdings : List (HoldingLine α)} {bps : Nat} {escrow : Int}
  {st : Settlement α}

theorem presented_eq {p q : Side → Int} (h : holdings.foldlM addPresented p = .ok q)
    (side : Side) : q side = p side + sideTotal side holdings := by
  induction holdings generalizing p with
  | nil =>
    rw [List.foldlM_nil, pure_eq_ok] at h
    rw [h, sideTotal_nil, add_zero]
  | cons x holdings ih =>
    simp only [List.foldlM_cons, addPresented, checkedI128_eq_some, ok_iff] at h
    obtain ⟨_, ⟨_, -, _, ⟨rfl, -⟩, rfl⟩, h⟩ := h
    rw [ih h, sideTotal_cons, ← add_assoc]
    by_cases hs : side = x.side
    · subst hs
      rw [Function.update_self, if_pos rfl]
    · rw [Function.update_of_ne hs, if_neg (Ne.symm hs), add_zero]

theorem requireComplete_eq_ok {minted presented : Int} {u : Unit} :
    requireComplete minted presented = .ok u ↔ presented = minted := by
  unfold requireComplete
  split_ifs with h
  · simp [h]
  · simp only [ok_iff]
    exact ⟨by rintro ⟨_, -, ⟨⟩⟩, fun h' => absurd h' h⟩

/-- An empty list has no dust to spare, so it never settles. -/
theorem complete_of_settled (h : settleMarket holdings bps escrow = .ok st) :
    holdings ≠ [] ∧ ∀ side, sideTotal side holdings = escrow := by
  simp only [settleMarket, requireComplete_eq_ok, ok_iff] at h
  obtain ⟨r, -, _, hpos, presented, hp, _, hyes, _, hno, paid, hpaid, _, -, _, -, h⟩ := h
  refine ⟨?_, fun side => ?_⟩
  · rintro rfl
    cases hpaid
    rw [if_pos (.inr (by simpa using hpos))] at h
    simp only [ok_iff] at h
    obtain ⟨_, -, ⟨⟩⟩ := h
  · rw [← (presented_eq hp side).trans (zero_add _)]
    cases side
    · exact hyes
    · exact hno

/-- A settlement spelled out: each holding's floored payout and what they leave. -/
theorem settled_eq (hbps : bps ≤ 10000) (hfit : FitsI64 escrow)
    (hnn : ∀ h ∈ holdings, 0 ≤ h.shares) (h : settleMarket holdings bps escrow = .ok st) :
    ∃ r : Redemption, redemptions bps = .ok r ∧ r.Complementary ∧
      st = { payouts := holdings.map fun h => (h.account, payout r h)
             dust := escrow - payoutSum r holdings } := by
  obtain ⟨hne, hcomplete⟩ := complete_of_settled h
  obtain ⟨r, hred, hr, hst⟩ := settleMarket_of_complete hbps hfit hne hnn hcomplete
  exact ⟨r, hred, hr, Except.ok.inj (h.symm.trans hst)⟩

variable [DecidableEq α]

def paidTo (account : α) (st : Settlement α) : Int :=
  ((st.payouts.filter fun p => p.1 = account).map Prod.snd).sum

/-- The account's shares at their redemption values, before flooring. -/
def redeemed (r : Redemption) (account : α) (holdings : List (HoldingLine α)) : Int :=
  ((holdings.filter fun h => h.account = account).map fun h => h.shares * r.of h.side).sum

/-- Two holdings of one account and side as one. -/
def merge (a b : HoldingLine α) : HoldingLine α := { a with shares := a.shares + b.shares }

theorem paidTo_eq (r : Redemption) (account : α) (dust : Int) :
    paidTo account { payouts := holdings.map fun h => (h.account, payout r h), dust := dust } =
      payoutSum r (holdings.filter fun h => h.account = account) := by
  rw [paidTo, List.filter_map, List.map_map]
  rfl

omit [DecidableEq α] in
theorem payout_merge {r : Redemption} {a b : HoldingLine α} (hside : a.side = b.side) :
    payout r a + payout r b ≤ payout r (merge a b) := by
  simp only [payout, merge, ← hside, add_mul]
  omega

omit [DecidableEq α] in
theorem sideTotal_merge (side : Side) {a b : HoldingLine α} (hside : a.side = b.side)
    (rest : List (HoldingLine α)) :
    sideTotal side (merge a b :: rest) = sideTotal side (a :: b :: rest) := by
  simp only [sideTotal_cons, merge, ← hside]
  split_ifs <;> omega

/-- A list of holdings settles exactly when it is not empty and each side's total is the
escrow. The payouts and the dust are then the escrow with the dust below one unit a
holding, a reordered list pays every holding the same, merging two holdings of one
account and side pays that account no less, and no account is paid above the redemption
value of its shares. -/
theorem settleMarket_exact_and_fair (hbps : bps ≤ 10000) (hfit : FitsI64 escrow)
    (hnn : ∀ h ∈ holdings, 0 ≤ h.shares) :
    ((∃ st, settleMarket holdings bps escrow = .ok st) ↔
      holdings ≠ [] ∧ sideTotal .yes holdings = escrow ∧ sideTotal .no holdings = escrow) ∧
    ∀ st, settleMarket holdings bps escrow = .ok st →
      (st.payouts.map Prod.snd).sum + st.dust = escrow ∧
      0 ≤ st.dust ∧ st.dust < holdings.length ∧
      (∀ holdings' : List (HoldingLine α), holdings'.Perm holdings →
        ∃ st', settleMarket holdings' bps escrow = .ok st' ∧
          (holdings'.zip st'.payouts).Perm (holdings.zip st.payouts) ∧ st'.dust = st.dust) ∧
      (∀ a b rest, holdings.Perm (a :: b :: rest) → a.account = b.account → a.side = b.side →
        ∃ st', settleMarket (merge a b :: rest) bps escrow = .ok st' ∧
          paidTo a.account st ≤ paidTo a.account st') ∧
      ∀ account, ∃ r, redemptions bps = .ok r ∧
        1000000 * paidTo account st ≤ redeemed r account holdings := by
  refine ⟨⟨fun ⟨st, h⟩ => ?_, fun ⟨hne, hyes, hno⟩ => ?_⟩, fun st h => ?_⟩
  · obtain ⟨hne, hcomplete⟩ := complete_of_settled h
    exact ⟨hne, hcomplete .yes, hcomplete .no⟩
  · have hcomplete : ∀ side, sideTotal side holdings = escrow := by
      intro side
      cases side <;> assumption
    obtain ⟨r, -, -, hst⟩ := settleMarket_of_complete hbps hfit hne hnn hcomplete
    exact ⟨_, hst⟩
  obtain ⟨hne, hcomplete⟩ := complete_of_settled h
  obtain ⟨r, hred, hr, rfl⟩ := settled_eq hbps hfit hnn h
  obtain ⟨hlo, hhi⟩ := dust_bounds hr hne (hcomplete .yes) (hcomplete .no)
  refine ⟨?_, hlo, hhi, fun holdings' hperm => ?_, fun a b rest hperm haccount hside => ?_,
    fun account => ⟨r, hred, ?_⟩⟩
  · simp [payoutSum, List.map_map, Function.comp_def]
  · obtain ⟨r', hred', -, hst⟩ := settleMarket_of_complete hbps hfit
      (fun h0 => hne (List.Perm.nil_eq (h0 ▸ hperm)).symm) (fun x hx => hnn x (hperm.mem_iff.1 hx))
      fun side => ((hperm.map _).sum_eq).trans (hcomplete side)
    obtain rfl := Except.ok.inj (hred'.symm.trans hred)
    refine ⟨_, hst, ?_, congrArg (escrow - ·) (hperm.map (payout r')).sum_eq⟩
    rw [← List.map_prod_left_eq_zip, ← List.map_prod_left_eq_zip]
    exact hperm.map _
  · have hmem : ∀ x ∈ a :: b :: rest, 0 ≤ x.shares := fun x hx => hnn x (hperm.mem_iff.2 hx)
    have ha := hmem a (by simp)
    have hb := hmem b (by simp)
    have hshares : ∀ x ∈ merge a b :: rest, 0 ≤ x.shares := by
      intro x hx
      rcases List.mem_cons.1 hx with rfl | hx
      · exact add_nonneg ha hb
      · exact hmem x (by simp [hx])
    have hsides : ∀ side, sideTotal side (merge a b :: rest) = escrow := by
      intro side
      rw [sideTotal_merge side hside]
      exact ((hperm.map _).sum_eq).symm.trans (hcomplete side)
    obtain ⟨r', hred', -, hst⟩ := settleMarket_of_complete hbps hfit
      (List.cons_ne_nil (merge a b) rest) hshares hsides
    obtain rfl := Except.ok.inj (hred'.symm.trans hred)
    refine ⟨_, hst, ?_⟩
    have hpaid := payout_merge (r := r') hside
    rw [paidTo_eq, paidTo_eq, payoutSum, ((hperm.filter _).map _).sum_eq]
    simp only [payoutSum, merge, ← haccount, decide_true, List.filter_cons_of_pos, List.map_cons,
      List.sum_cons] at hpaid ⊢
    omega
  · rw [paidTo_eq]
    exact (floor_loss r _).1

/-- Three holdings of which one account has two: split, they floor away a unit that the
merged holding is paid. -/
theorem settleMarket_exact_and_fair_thirds :
    let holdings : List (HoldingLine Nat) := [⟨1, .yes, 1⟩, ⟨2, .no, 2⟩, ⟨1, .yes, 1⟩]
    (∃ st, settleMarket holdings 5000 2 = .ok st) ∧
      ∃ st', settleMarket (merge ⟨1, .yes, 1⟩ ⟨1, .yes, 1⟩ :: [⟨2, .no, 2⟩]) 5000 2 = .ok st' := by
  intro holdings
  obtain ⟨hiff, hfair⟩ := settleMarket_exact_and_fair (show 5000 ≤ 10000 by decide)
    (show FitsI64 2 by decide) (show ∀ h ∈ holdings, 0 ≤ h.shares by decide)
  obtain ⟨st, hst⟩ := hiff.2 (by decide)
  obtain ⟨st', hst', -⟩ := (hfair st hst).2.2.2.2.1 ⟨1, .yes, 1⟩ ⟨1, .yes, 1⟩ [⟨2, .no, 2⟩]
    (by decide) rfl rfl
  exact ⟨⟨st, hst⟩, st', hst'⟩

end Opinions.Domain.Resolution
