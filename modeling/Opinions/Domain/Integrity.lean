import Mathlib

/-! The anomaly checks before a payout (`domain/src/integrity.rs`). Counts are 32-bit,
shares are parts per million as 64-bit integers that stick at their maximum. -/

namespace Opinions.Domain.Integrity

structure VoteStats where
  total : Nat
  lastWindow : Nat
  priorWindowsTotal : Nat
  priorHorizonWindows : Nat
  youngAccounts : Nat
  subnetObserved : Nat
  topSubnetCount : Nat
  deviceObserved : Nat
  topDeviceCount : Nat

structure SweepThresholds where
  burstMultiplierPpm : Nat
  youngAccountShareMaxPpm : Nat
  subnetShareMaxPpm : Nat
  deviceShareMaxPpm : Nat
  minVotesForRatios : Nat
  minMetadataCoveragePpm : Nat

inductive Strength
  | weak
  | medium

structure CheckResult where
  name : String
  valuePpm : Nat
  thresholdPpm : Nat
  coveragePpm : Nat
  strength : Strength
  flagged : Bool
  note : String

inductive Verdict
  | pass
  | flag
  deriving DecidableEq

def maxU64 : Nat := 18446744073709551615

def ratioPpm (numerator denominator : Nat) : Nat :=
  if denominator = 0 then 0 else min (numerator * 1000000 / denominator) maxU64

def coveragePpm (observed total : Nat) : Nat := min (ratioPpm observed total) 4294967295

def lowVotes (name : String) (threshold : Nat) (strength : Strength) : CheckResult :=
  { name := name, valuePpm := 0, thresholdPpm := threshold, coveragePpm := 1000000
    strength := strength, flagged := false
    note := "skipped: fewer than the configured minimum votes" }

def voteBurst (s : VoteStats) (t : SweepThresholds) : CheckResult :=
  if s.total < t.minVotesForRatios then lowVotes "vote_burst" t.burstMultiplierPpm .medium
  else if s.priorWindowsTotal = 0 then
    { name := "vote_burst", valuePpm := s.lastWindow * 1000000
      thresholdPpm := t.minVotesForRatios * 1000000, coveragePpm := 1000000, strength := .medium
      flagged := t.minVotesForRatios < s.lastWindow
      note := "zero prior baseline; compares final-window count to minimum votes" }
  else
    let valuePpm :=
      min (s.lastWindow * s.priorHorizonWindows * 1000000 / s.priorWindowsTotal) maxU64
    { name := "vote_burst", valuePpm := valuePpm, thresholdPpm := t.burstMultiplierPpm
      coveragePpm := 1000000, strength := .medium, flagged := t.burstMultiplierPpm < valuePpm
      note := "final close-anchored window versus prior-window average" }

structure ShareCheck where
  name : String
  count : Nat
  denominator : Nat
  threshold : Nat
  minCoverage : Nat
  strength : Strength
  note : String

def shareCheck (input : ShareCheck) (total minVotes : Nat) : CheckResult :=
  if total < minVotes then lowVotes input.name input.threshold input.strength
  else
    let coverage := coveragePpm input.denominator total
    if coverage < input.minCoverage then
      { name := input.name, valuePpm := 0, thresholdPpm := input.threshold, coveragePpm := coverage
        strength := input.strength, flagged := false
        note := "skipped: metadata coverage below configured minimum" }
    else
      let value := ratioPpm input.count input.denominator
      { name := input.name, valuePpm := value, thresholdPpm := input.threshold
        coveragePpm := coverage, strength := input.strength, flagged := input.threshold < value
        note := input.note }

def sweepChecks (s : VoteStats) (t : SweepThresholds) : List CheckResult :=
  [voteBurst s t,
   shareCheck ⟨"young_account_share", s.youngAccounts, s.total, t.youngAccountShareMaxPpm, 0,
     .medium, "account age at cast time"⟩ s.total t.minVotesForRatios,
   shareCheck ⟨"subnet_concentration", s.topSubnetCount, s.subnetObserved, t.subnetShareMaxPpm,
     t.minMetadataCoveragePpm, .weak, "weak IP-prefix proxy: IPv4 /24, IPv6 /64"⟩
     s.total t.minVotesForRatios,
   shareCheck ⟨"device_concentration", s.topDeviceCount, s.deviceObserved, t.deviceShareMaxPpm,
     t.minMetadataCoveragePpm, .weak, "weak client-asserted device identifier"⟩
     s.total t.minVotesForRatios]

def verdict (results : List CheckResult) : Verdict :=
  if 2 ≤ results.countP CheckResult.flagged then .flag else .pass

end Opinions.Domain.Integrity
