import Opinions.Lib.Run
import Opinions.Vote.Cast

/-! Who votes, in which order and how often. Votes are cast under one clock that never goes
back, while the rest of the platform moves markets and money at will. A user votes once on a
market, a market numbers its votes without a gap, and no user passes the limit of the trailing
window. -/

namespace Opinions.Vote

open Lib.Checked Lib.Result Lib.Rows Lib.Run Model Store Trade

structure World where
  store : Store
  votes : VoteDb
  clock : Instant

inductive Action
  | cast (facts : VoteFacts) (cmd : CastVoteCmd)
  | tick (nanos : Nat)
  /-- Any other transaction. -/
  | other (store : Store)

namespace World

/-- Before the first vote. -/
def start (store : Store) (clock : Instant) : World := ⟨store, ⟨[], [], []⟩, clock⟩

def step (cfg : VoteIntegrityConfig) (w : World) : Action → Except AppError World
  | .cast facts cmd => do
    let (_, store, votes) ← castVote cfg { facts with now := w.clock } cmd (w.store, w.votes)
    pure { w with store := store, votes := votes }
  | .tick nanos => pure { w with clock := w.clock + nanos }
  | .other store => pure { w with store := store }

end World

/-- The votes of a user in the window that ends at a time. -/
def inWindow (cfg : VoteIntegrityConfig) (votes : List VoteRow) (user : UserId) (now : Instant) :
    Nat :=
  votes.countP fun r => r.user = user ∧ now - cfg.windowSecs * 1000000000 ≤ r.createdAt ∧
    r.createdAt ≤ now

/-- The numbers 1, 2, 3, … up to `n`. -/
def numbers (n : Nat) : List Int := (List.range n).map fun i => (i : Int) + 1

structure Admitted (cfg : VoteIntegrityConfig) (v : VoteDb) : Prop where
  keys : (v.votes.map VoteRow.idempotencyKey).Nodup
  once : (v.votes.map fun r => (r.user, r.market)).Nodup
  numbered : ∀ m, ∃ n : Nat, v.nextSeq m = (n : Int) + 1 ∧
    (v.votes.filter (·.market = m)).map VoteRow.seq = numbers n
  limited : ∀ r ∈ v.votes, inWindow cfg v.votes r.user r.createdAt ≤ cfg.maxVotesPerWindow

variable {cfg : VoteIntegrityConfig} {facts : VoteFacts} {cmd : CastVoteCmd} {v v' : VoteDb}

/-- What a vote that is not a replay found and wrote. -/
theorem cast_spec {s s' : Store} {receipt : VoteReceipt}
    (h : castVote cfg facts cmd (s, v) = .ok (receipt, s', v')) :
    v' = v ∨ find VoteRow.idempotencyKey cmd.idempotencyKey v.votes = none ∧
      v.votesCountSince cmd.user (facts.now - cfg.windowSecs * 1000000000) <
        cfg.maxVotesPerWindow ∧ ∃ seq, insertVote facts cmd v = .ok (seq, v') := by
  simp only [castVote, ok_iff] at h
  obtain ⟨_, -, h⟩ := h
  split at h
  · simp only [ok_iff] at h
    obtain ⟨_, -, -, -, rfl⟩ := h
    exact .inl rfl
  · rename_i hkey
    simp only [gateIntegrity, secs, ok_iff] at h
    obtain ⟨_, -, _, -, _, -, _, -, _, ⟨_, -, _, ⟨_, hwindow, rfl⟩, _, hrate, -⟩, _, -, ⟨seq, _⟩,
      hinsert, -, -, rfl⟩ := h
    rw [← (tryI64_eq_some.1 hwindow).1] at hrate
    exact .inr ⟨hkey, not_le.1 hrate, seq, hinsert⟩

theorem inWindow_concat (votes : List VoteRow) (r : VoteRow) (user : UserId) (now : Instant) :
    inWindow cfg (votes ++ [r]) user now = inWindow cfg votes user now +
      if r.user = user ∧ now - cfg.windowSecs * 1000000000 ≤ r.createdAt ∧ r.createdAt ≤ now
      then 1 else 0 := by
  simp [inWindow, List.countP_append, List.countP_singleton]

theorem Admitted.insert {seq : Int} (h : Admitted cfg v)
    (hpast : ∀ r ∈ v.votes, r.createdAt ≤ facts.now)
    (hkey : find VoteRow.idempotencyKey cmd.idempotencyKey v.votes = none)
    (hrate : v.votesCountSince cmd.user (facts.now - cfg.windowSecs * 1000000000) <
      cfg.maxVotesPerWindow) (hinsert : insertVote facts cmd v = .ok (seq, v')) :
    Admitted cfg v' ∧ ∀ r ∈ v'.votes, r.createdAt ≤ facts.now := by
  simp only [insertVote, ok_iff] at hinsert
  obtain ⟨_, hvoted, rfl, rfl⟩ := hinsert
  refine ⟨⟨?_, ?_, fun m => ?_, fun r hr => ?_⟩, fun r hr => ?_⟩
  · simpa [List.nodup_append, h.keys] using fun r hr => find_eq_none.1 hkey r hr
  · simpa [List.nodup_append, h.once, VoteDb.userVoted] using hvoted
  · obtain ⟨n, hn, hseq⟩ := h.numbered m
    by_cases hm : cmd.market = m
    · subst hm
      refine ⟨n + 1, ?_, ?_⟩
      · simp [VoteDb.nextSeq, find_upsert] at hn ⊢
        omega
      · simp [numbers, List.range_succ, hseq, hn]
    · refine ⟨n, ?_, ?_⟩
      · simpa [VoteDb.nextSeq, find_upsert, Ne.symm hm] using hn
      · simp [hm, hseq]
  · -- the window of the new vote, which is also that of an old one of the same moment
    have hold : inWindow cfg v.votes cmd.user facts.now < cfg.maxVotesPerWindow := by
      refine lt_of_le_of_lt (List.countP_mono_left fun x _ hx => ?_) hrate
      simp only [decide_eq_true_eq] at hx ⊢
      exact ⟨hx.1, hx.2.1⟩
    rw [inWindow_concat]
    rcases mem_concat.1 hr with hr | rfl
    · split_ifs with hin
      · rw [← hin.1, le_antisymm (hpast r hr) hin.2.2]
        exact hold
      · exact h.limited r hr
    · split_ifs
      · exact hold
      · exact hold.le
  · rcases mem_concat.1 hr with hr | rfl
    · exact hpast r hr
    · exact le_rfl

/-- However votes, time and the rest of the platform interleave: a key books one vote, a user
votes once on a market, the votes of a market are numbered 1, 2, 3, … in the order they were
cast, and no window that ends with a vote has more of its user's votes than allowed. -/
theorem votes_admitted (cfg : VoteIntegrityConfig) (store : Store) (clock : Instant)
    (actions : List Action) :
    Admitted cfg (run (World.step cfg) (.start store clock) actions).votes := by
  refine (run_preserves (P := fun w : World => Admitted cfg w.votes ∧
    ∀ r ∈ w.votes.votes, r.createdAt ≤ w.clock) (fun a _ w w' ⟨h, hpast⟩ hstep => ?_) ?_).1
  · cases a with
    | cast facts cmd =>
      simp only [World.step, ok_iff] at hstep
      obtain ⟨⟨receipt, store, votes⟩, hcast, rfl⟩ := hstep
      rcases cast_spec hcast with rfl | ⟨hkey, hrate, seq, hinsert⟩
      · exact ⟨h, hpast⟩
      · exact h.insert hpast hkey hrate hinsert
    | tick nanos =>
      cases hstep
      exact ⟨h, fun r hr => (hpast r hr).trans (by simp)⟩
    | other store =>
      cases hstep
      exact ⟨h, hpast⟩
  · exact ⟨⟨List.nodup_nil, List.nodup_nil, fun _ => ⟨0, rfl, rfl⟩, List.forall_mem_nil _⟩,
      List.forall_mem_nil _⟩

end Opinions.Vote
