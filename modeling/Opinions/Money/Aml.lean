import Opinions.Money.Limits

/-! The money-laundering rules (`evaluate_aml` of `application/src/money/aml.rs`). One
window, the one configured for structuring, selects the legs of all three rules; so the
two velocity rules are about the last 24 hours exactly when it is 24 hours long. -/

namespace Opinions.Money

open Config Lib.Checked Lib.Run Model Trade

inductive AmlKind where
  | structuring
  | depositVelocity
  | withdrawVelocity
  | sanctionsHit

inductive AmlDirection where
  | deposit
  | withdrawal
  deriving DecidableEq

/-- A deposit, withdrawal or conversion; its table checks that the amount is positive. -/
structure AmlLeg where
  id : Uuid
  user : UserId
  dest : String
  amountMicro : Int
  at' : Instant
  direction : AmlDirection
  positive : 0 < amountMicro

def AmlPolicy.seed : AmlPolicy :=
  ⟨100000000, 500000000, 4, hours 24, 5000000000, 5000000000⟩

def inStructuringBand (amountMicro : Int) (policy : AmlPolicy) : Bool :=
  policy.floorMicro ≤ amountMicro ∧ amountMicro < policy.thresholdMicro

structure AmlEvaluation where
  structuringUser : Int
  structuringDest : Int
  depositVelocity : Int
  depositVelocitySaturated : Bool
  withdrawVelocity : Int
  withdrawVelocitySaturated : Bool
  flags : List AmlKind

/-- The legs of the last `window` and the candidate. -/
def legsWithin (window : Int) (existing : List AmlLeg) (candidate : AmlLeg) : List AmlLeg :=
  let since := candidate.at' - window
  existing.filter (fun leg => since ≤ leg.at' ∧ leg.at' ≤ candidate.at') ++ [candidate]

/-- A sum that stays at the end of the range and remembers that it did. -/
def addAmount (acc : Int × Bool) (amount : Int) : Int × Bool :=
  match tryI64 (acc.1 + amount) with
  | none => (saturatingAdd acc.1 amount, true)
  | some next => (next, acc.2)

/-- The amounts of the candidate's user in one direction. -/
def amountsOf (direction : AmlDirection) (candidate : AmlLeg) (legs : List AmlLeg) : List Int :=
  (legs.filter fun leg => leg.user = candidate.user ∧ leg.direction = direction).map
    AmlLeg.amountMicro

/-- How many of the legs with the property are in the structuring band. -/
def inBand (policy : AmlPolicy) (legs : List AmlLeg) (p : AmlLeg → Bool) : Nat :=
  (legs.filter fun leg => p leg ∧ inStructuringBand leg.amountMicro policy).length

def evaluateAml (existing : List AmlLeg) (candidate : AmlLeg) (policy : AmlPolicy) :
    AmlEvaluation :=
  let legs := legsWithin policy.window existing candidate
  let count (p : AmlLeg → Bool) : Int := (tryI64 (inBand policy legs p)).getD 9223372036854775807
  let structuringUser := count fun leg => leg.user = candidate.user
  let structuringDest := count fun leg => leg.dest = candidate.dest
  let deposits := (amountsOf .deposit candidate legs).foldl addAmount (0, false)
  let withdrawals := (amountsOf .withdrawal candidate legs).foldl addAmount (0, false)
  { structuringUser := structuringUser, structuringDest := structuringDest
    depositVelocity := deposits.1, depositVelocitySaturated := deposits.2
    withdrawVelocity := withdrawals.1, withdrawVelocitySaturated := withdrawals.2
    flags :=
      (if policy.n ≤ structuringUser ∨ policy.n ≤ structuringDest then [.structuring] else []) ++
      (if policy.depositVelocityMicro24h ≤ deposits.1 then [.depositVelocity] else []) ++
      if policy.withdrawVelocityMicro24h ≤ withdrawals.1 then [.withdrawVelocity] else [] }

/-- The flags are the ones the rules ask for: structuring over its own window, the
velocities over the window `day`, as unbounded sums. -/
structure FlaggedOver (day : Int) (policy : AmlPolicy) (existing : List AmlLeg)
    (candidate : AmlLeg) : Prop where
  structuring : .structuring ∈ (evaluateAml existing candidate policy).flags ↔
    policy.n ≤ inBand policy (legsWithin policy.window existing candidate)
        (fun leg => leg.user = candidate.user) ∨
      policy.n ≤ inBand policy (legsWithin policy.window existing candidate)
        fun leg => leg.dest = candidate.dest
  deposit : .depositVelocity ∈ (evaluateAml existing candidate policy).flags ↔
    policy.depositVelocityMicro24h ≤
      (amountsOf .deposit candidate (legsWithin day existing candidate)).sum
  withdraw : .withdrawVelocity ∈ (evaluateAml existing candidate policy).flags ↔
    policy.withdrawVelocityMicro24h ≤
      (amountsOf .withdrawal candidate (legsWithin day existing candidate)).sum

theorem foldl_addAmount {amounts : List Int} (hpos : ∀ x ∈ amounts, 0 ≤ x) {acc : Int × Bool}
    (hacc : 0 ≤ acc.1 ∧ acc.1 ≤ 9223372036854775807) :
    (amounts.foldl addAmount acc).1 = min (acc.1 + amounts.sum) 9223372036854775807 := by
  induction amounts generalizing acc with
  | nil => simp [hacc.2]
  | cons x amounts ih =>
    have hx := hpos x List.mem_cons_self
    have hstep : (addAmount acc x).1 = min (acc.1 + x) 9223372036854775807 := by
      unfold addAmount
      split <;> rename_i h
      · simp only [saturatingAdd]
        omega
      · obtain ⟨rfl, hfits⟩ := tryI64_eq_some.1 h
        exact (min_eq_left hfits.2).symm
    have hrest : 0 ≤ amounts.sum :=
      List.sum_nonneg fun y hy => hpos y (List.mem_cons_of_mem x hy)
    rw [List.foldl_cons, ih (fun y hy => hpos y (List.mem_cons_of_mem x hy)) (by omega), hstep,
      List.sum_cons]
    omega

variable {policy : AmlPolicy} {existing : List AmlLeg} {candidate : AmlLeg}

theorem le_velocity {direction : AmlDirection} {legs : List AmlLeg} {limit : Int}
    (hlimit : limit ≤ 9223372036854775807) :
    limit ≤ ((amountsOf direction candidate legs).foldl addAmount (0, false)).1 ↔
      limit ≤ (amountsOf direction candidate legs).sum := by
  have hpos : ∀ x ∈ amountsOf direction candidate legs, 0 ≤ x := by
    intro x hx
    obtain ⟨leg, -, rfl⟩ := List.mem_map.1 hx
    exact leg.positive.le
  rw [foldl_addAmount hpos (by decide)]
  omega

theorem le_count {n : Int} {k : Nat} (hn : n ≤ 9223372036854775807) :
    n ≤ (tryI64 k).getD 9223372036854775807 ↔ n ≤ k := by
  cases h : tryI64 k with
  | none =>
    have hbig : ¬FitsI64 k := fun hfits => by rw [tryI64_of_fits hfits] at h; cases h
    rw [Option.getD_none]
    omega
  | some =>
    obtain ⟨rfl, -⟩ := tryI64_eq_some.1 h
    rfl

/-- What the code flags: every rule over the structuring window. -/
theorem flaggedOver_window (hn : policy.n ≤ 9223372036854775807)
    (hdeposit : policy.depositVelocityMicro24h ≤ 9223372036854775807)
    (hwithdraw : policy.withdrawVelocityMicro24h ≤ 9223372036854775807) :
    FlaggedOver policy.window policy existing candidate where
  structuring := by simp [evaluateAml, le_count hn]
  deposit := by simp [evaluateAml, le_velocity hdeposit]
  withdraw := by simp [evaluateAml, le_velocity hwithdraw]

/-- A deposit `ago` before a withdrawal of the same user. -/
def depositAgo (amount : Int) (hamount : 0 < amount) (ago : Int) : AmlLeg :=
  ⟨0, ⟨0⟩, "", amount, -ago, .deposit, hamount⟩

def laterWithdrawal : AmlLeg := ⟨1, ⟨0⟩, "dest", 1, 0, .withdrawal, one_pos⟩

theorem amountsOf_depositAgo {amount : Int} (hamount : 0 < amount) {ago span : Int}
    (hago : 0 ≤ ago) : (amountsOf .deposit laterWithdrawal
      (legsWithin span [depositAgo amount hamount ago] laterWithdrawal)).sum =
        if ago ≤ span then amount else 0 := by
  by_cases h : ago ≤ span <;> simp [amountsOf, legsWithin, depositAgo, laterWithdrawal, h, hago]

/-- The velocity flags are about 24 hours exactly when the structuring window is. -/
theorem velocity_exact_iff_day (p : Parsers) {snap : Snapshot} (h : Reached snap)
    {policy : AmlPolicy} (hpolicy : amlPolicy p snap = .ok policy) :
    (∀ existing candidate, FlaggedOver (hours 24) policy existing candidate) ↔
      policy.window = hours 24 := by
  obtain ⟨read, hread, hn, ⟨hpos, hdeposit⟩, hwithdraw⟩ := reached_amlPolicy h p
  obtain rfl := Except.ok.inj (hread.symm.trans hpolicy)
  have hcode (existing candidate) : FlaggedOver read.window read existing candidate :=
    flaggedOver_window (by omega) (by omega) (by omega)
  constructor
  · intro hexact
    -- a deposit at the far end of the longer of the two windows
    have hago : 0 ≤ max read.window (hours 24) := le_max_of_le_right (by decide)
    have hflag := (hcode _ _).deposit.symm.trans
      (hexact [depositAgo _ hpos (max read.window (hours 24))] laterWithdrawal).deposit
    rw [amountsOf_depositAgo hpos hago, amountsOf_depositAgo hpos hago] at hflag
    split_ifs at hflag <;> omega
  · intro hday
    exact hday ▸ hcode

theorem seed_velocity_exact :
    FlaggedOver (hours 24) .seed [depositAgo 5000000000 (by decide) (hours 7)] laterWithdrawal :=
  (velocity_exact_iff_day ⟨fun _ => none, fun _ => none⟩ reached_seed rfl).2 rfl _ _

/-- With a window of six hours the limit is moved in and no flag is raised. -/
theorem short_window_hides_velocity :
    ∃ policy, amlPolicy ⟨fun _ => none, fun _ => none⟩ (run accept publishedSeed
        [.obj [("aml_structuring_window_hours", .int 6)]]) = .ok policy ∧
      ∃ existing candidate, policy.depositVelocityMicro24h ≤
          (amountsOf .deposit candidate (legsWithin (hours 24) existing candidate)).sum ∧
        (evaluateAml existing candidate policy).flags = [] :=
  ⟨{ AmlPolicy.seed with window := hours 6 }, by decide +kernel,
    [depositAgo 5000000000 (by decide) (hours 7)], laterWithdrawal, by decide +kernel⟩

end Opinions.Money
