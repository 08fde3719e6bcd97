import Opinions.Lib.Run
import Opinions.Trade.Legs

/-! Position accounting over many trades. One user buys and sells one outcome in any
order, each time against whatever pool and fee the trade meets. The position keeps
the shares bought and not yet sold, and what the buys paid is split between the cost
that sells relieved and the cost that remains. -/

namespace Opinions.Trade

open Lib.Checked Lib.Result Lib.Run Domain.Amm Domain.Money Model

/-- A trade command with the pool and the fee it meets. -/
structure Asked where
  cmd : PlaceTradeCmd
  pool : Pool
  fee : Nat

/-- The position row and what the accepted trades bought, sold, paid and brought in. -/
structure Tracked where
  held : Option PositionRow
  bought : Int
  sold : Int
  paid : Int
  proceeds : Int
  relieved : Int

def Tracked.start : Tracked := ⟨none, 0, 0, 0, 0, 0⟩

variable (user : UserId) (outcome : OutcomeId)

def Tracked.position (t : Tracked) : PositionRow := t.held.getD (freshPosition user outcome)

/-- The command as this user's trade in this outcome. -/
def Asked.own (a : Asked) : PlaceTradeCmd :=
  { a.cmd with market := outcome.market, user := user, side := outcome.side }

/-- The share of its cost a position gives up with the shares it sells. -/
def costRelieved (position : PositionRow) (shares : Int) : Int :=
  (position.cost * shares).tdiv position.shares

/-- An accepted trade saves the position its legs hold. -/
def Tracked.take (t : Tracked) (a : Asked) : Except AppError Tracked := do
  let legs ← quoteLegs (a.own user outcome) a.pool outcome t.held a.fee
  match a.cmd.action with
  | .buy => pure { t with
      held := some legs.position, bought := t.bought + legs.shares, paid := t.paid + legs.gross }
  | .sell => pure { t with
      held := some legs.position, sold := t.sold + legs.shares
      proceeds := t.proceeds + legs.userDelta
      relieved := t.relieved + costRelieved (t.position user outcome) legs.shares }

/-- The books of the position agree with the trades. -/
structure Tracked.Kept (t : Tracked) : Prop where
  shares : (t.position user outcome).shares = t.bought - t.sold
  shares_nonneg : 0 ≤ (t.position user outcome).shares
  cost_nonneg : 0 ≤ (t.position user outcome).cost
  emptied : (t.position user outcome).shares = 0 → (t.position user outcome).cost = 0
  cost : t.relieved + (t.position user outcome).cost = t.paid
  realized : (t.position user outcome).realizedPnl = t.proceeds - t.relieved

variable {user outcome} {t t' : Tracked} {a : Asked}

/-- Selling part of a position relieves at most its cost. -/
theorem costRelieved_bounds {p : PositionRow} {shares : Int} (hcost : 0 ≤ p.cost)
    (hpos : 0 < shares) (hle : shares ≤ p.shares) :
    0 ≤ costRelieved p shares ∧ costRelieved p shares ≤ p.cost := by
  have hprod : 0 ≤ p.cost * shares := mul_nonneg hcost hpos.le
  have hbound : p.cost * shares ≤ p.cost * p.shares := mul_le_mul_of_nonneg_left hle hcost
  rw [costRelieved, Int.tdiv_eq_ediv_of_nonneg hprod]
  exact ⟨Int.ediv_nonneg hprod (by omega), Int.ediv_le_of_le_mul (by omega) hbound⟩

theorem sharesOut_pos {pool : Pool} {side : Side} {collateral : Int} {fee : Nat} {q : BuyQuote}
    (h : quoteBuy pool side collateral fee = .ok q) : 0 ≤ collateral ∧ 0 < q.sharesOut := by
  simp only [quoteBuy, tryI64_eq_some, ok_iff] at h
  obtain ⟨_, -, split, hsplit, _, -, _, -, _, -, _, -, _, -, out, -, _, hout, _, -, _, ⟨rfl, -⟩, _,
    -, _, -, _, -, rfl⟩ := h
  exact ⟨(applyFee_spec hsplit).1, by dsimp only; omega⟩

theorem Tracked.Kept.take (ht : t.Kept user outcome) (h : t.take user outcome a = .ok t') :
    t'.Kept user outcome := by
  have hshares := ht.shares
  have hcost := ht.cost
  have hrealized := ht.realized
  have hnn := ht.shares_nonneg
  have hcnn := ht.cost_nonneg
  simp only [Tracked.take, quoteLegs, Asked.own, bind_eq_ok] at h
  obtain ⟨legs, hlegs, h⟩ := h
  cases ha : a.cmd.action with
  | buy =>
    simp only [ha, buyLegs, tryI64_eq_some, ok_iff] at h hlegs
    obtain ⟨q, hq, _, ⟨rfl, -⟩, _, ⟨rfl, -⟩, _, ⟨rfl, -⟩, rfl⟩ := hlegs
    obtain ⟨hgross, hout⟩ := sharesOut_pos hq
    subst h
    simp only [Tracked.position] at hshares hcost hrealized hnn hcnn
    constructor <;> simp only [Tracked.position, Option.getD_some] <;> omega
  | sell =>
    simp only [ha, sellLegs, tryI64_eq_some, ok_iff] at h hlegs
    obtain ⟨_, hheld, q, hq, _, ⟨rfl, -⟩, _, ⟨rfl, -⟩, _, ⟨rfl, -⟩, _, ⟨rfl, -⟩, _, ⟨rfl, -⟩, _, -,
      rfl⟩ := hlegs
    subst h
    have hpos : 0 < a.cmd.amountMicro := by omega
    have hle : a.cmd.amountMicro ≤ (t.position user outcome).shares := by
      simp only [Tracked.position]
      omega
    obtain ⟨hlo, hhi⟩ := costRelieved_bounds hcnn hpos hle
    have hall : a.cmd.amountMicro = (t.position user outcome).shares →
        costRelieved (t.position user outcome) a.cmd.amountMicro = (t.position user outcome).cost := by
      intro heq
      rw [costRelieved, heq, Int.mul_tdiv_cancel _ (by omega)]
    simp only [Tracked.position, costRelieved] at hshares hcost hrealized hnn hcnn hle hlo hhi hall
    constructor <;> simp only [Tracked.position, costRelieved, Option.getD_some] <;> omega

theorem Tracked.kept_start : Tracked.start.Kept user outcome := by
  constructor <;> simp [Tracked.position, Tracked.start, freshPosition]

/-- After any trades, accepted or not, the position's books agree with the accepted ones:
its shares are those bought less those sold, its cost is not negative and gone with the
last share, the relieved and the remaining cost are the gross paid by buys, and the
realized profit is the net proceeds less the relieved cost. -/
theorem position_accounts (user : UserId) (outcome : OutcomeId) (asked : List Asked) :
    (run (Tracked.take user outcome) Tracked.start asked).Kept user outcome :=
  run_preserves (fun _ _ _ _ ht h => ht.take h) Tracked.kept_start

end Opinions.Trade
