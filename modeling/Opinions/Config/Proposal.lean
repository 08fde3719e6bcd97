import Opinions.Config.Patch

/-! The administrators' commands on the config: direct writes of non-sensitive
keys, and the two-phase flow in which a proposal created by one principal is
confirmed or rejected by another (`application/src/ops/set_config.rs`,
`application/src/ops/proposals.rs`). -/

namespace Opinions.Config

open Lib.Result Lib.Rows Model Trade

inductive AdminContext
  | machine
  | admin (tokenDigest : String) (role : AdminRole)
  deriving DecidableEq

def AdminContext.principal (actor : AdminContext) (why : String) :
    Except AppError (String × AdminRole) :=
  match actor with
  | .machine => .error (.adminForbidden why)
  | .admin tokenDigest role => .ok (tokenDigest, role)

structure SetConfigCmd where
  actor : AdminContext
  patch : Value
  expectedBaseGeneration : Option Int
  deriving DecidableEq

/-- A direct write names a known, non-sensitive key that the role writes. -/
def gateDirectKey (role : AdminRole) (key : String) : Except AppError Unit := do
  refuse ((ruleFor key).isNone) (.configInvalid key "unknown config key")
  refuse (isSensitive key) (.adminForbidden "sensitive keys require the two-phase proposal flow")
  refuse (roleMayWrite role key = false) (.adminForbidden "role does not write this config key")

def setConfig (now : Int) (times : MarketId → Option MarketTimes) (cmd : SetConfigCmd)
    (db : ConfigDb) : Except AppError (AppliedPatch × ConfigDb) := do
  let (_, role) ← cmd.actor.principal "config writes require an admin actor"
  let object ← patchObject cmd.patch
  object.keys.forM (gateDirectKey role)
  applyPatch now times cmd.patch cmd.expectedBaseGeneration db

structure CreateProposalCmd where
  actor : AdminContext
  patch : Option Value
  revertOfGeneration : Option Int
  reason : String
  idempotencyKey : String
  deriving DecidableEq

def isPauseKey (key : String) : Bool :=
  key = "trading_paused" ∨ (stripFamily "market_paused:" key).isSome ∨
    (stripFamily "voting_paused:" key).isSome

def revertRow (c : ConfigChange) : Except AppError (String × Value) := do
  let old ← okOr c.old (.configInvalid c.key "cannot revert a key's creation")
  pure (c.key, old)

/-- Every changed key back to its old value, pause keys left out. -/
def revertPatchFromChanges (changes : List ConfigChange) : Except AppError Value := do
  refuse (changes = []) (.store (.notFound "config generation"))
  let rows ← (changes.filter fun c => isPauseKey c.key = false).mapM revertRow
  refuse (rows = [])
    (.configInvalid "patch" "generation contains only pause changes; nothing to revert")
  pure (.obj rows)

def ConfigDb.changesInGeneration (db : ConfigDb) (generation : Int) : List ConfigChange :=
  (db.changes.filter fun c => decide (c.1 = generation)).map Prod.snd

/-- The patch a proposal is about: given, with sensitive keys only, or read back from
the history. -/
def proposedPatch (cmd : CreateProposalCmd) (db : ConfigDb) : Except AppError Value :=
  match cmd.patch, cmd.revertOfGeneration with
  | some patch, none => do
    let object ← patchObject patch
    object.keys.forM fun key => refuse (isSensitive key = false)
      (AppError.configInvalid key "non-sensitive keys apply directly through SetConfig")
    pure patch
  | none, some generation => revertPatchFromChanges (db.changesInGeneration generation)
  | _, _ => .error (.configInvalid "patch"
      "exactly one of patch or revert_of_generation is required")

def defaultTtlSecs : Int := 900

/-- A second of the clock, in the nanoseconds instants are counted in. -/
def nanosPerSec : Int := 1000000000

/-- A repeated key answers with the stored proposal when the patch is the same. -/
def createProposal (id : Uuid) (now : Int) (cmd : CreateProposalCmd) (db : ConfigDb) :
    Except AppError (ConfigProposal × ConfigDb) := do
  let (tokenDigest, role) ← cmd.actor.principal "config proposals require an admin actor"
  let patch ← proposedPatch cmd db
  let object ← patchObject patch
  object.keys.forM fun key => refuse (roleMayPropose role key = false)
    (AppError.adminForbidden "role does not propose changes to this config key")
  let _ ← validatePatch db.entries patch
  match find ConfigProposal.idempotencyKey cmd.idempotencyKey db.proposals with
  | some existing => do
    refuse (existing.patch ≠ patch)
      (.proposalConflict "idempotency key was reused with a different patch")
    pure (existing, db)
  | none => do
    refuse ((find ConfigProposal.id id db.proposals).isSome)
      (.store (.conflict "config proposal idempotency key"))
    let ttl := (priorI64 db.entries "proposal_ttl_secs").getD defaultTtlSecs
    let proposal : ConfigProposal :=
      { id := id, idempotencyKey := cmd.idempotencyKey, patch := patch
        baseGeneration := db.generation, proposerTokenId := tokenDigest, proposerRole := role
        reason := cmd.reason, status := .pending, expiresAt := now + ttl * nanosPerSec
        confirmerTokenId := none, resultingGeneration := none }
    pure (proposal, { db with proposals := db.proposals ++ [proposal] })

structure SettleProposalCmd where
  actor : AdminContext
  id : Uuid
  deriving DecidableEq

/-- `save_proposal`: only the settlement of the row changes. -/
def ConfigDb.saveProposal (db : ConfigDb) (proposal : ConfigProposal) : ConfigDb :=
  { db with
    proposals := update ConfigProposal.id proposal.id
      (fun p => { p with
        status := proposal.status, confirmerTokenId := proposal.confirmerTokenId
        resultingGeneration := proposal.resultingGeneration }) db.proposals }

/-- How a settlement ended; an expired row is saved although the caller sees a
refusal. -/
inductive Settlement
  | settled (proposal : ConfigProposal)
  | expired

/-- A patch that no longer validates is a conflict with the moved base. -/
def movedBase : AppError → AppError
  | .configInvalid _ _ => .proposalConflict "the base generation moved incompatibly"
  | e => e

def confirmProposal (now : Int) (times : MarketId → Option MarketTimes) (cmd : SettleProposalCmd)
    (db : ConfigDb) : Except AppError (Settlement × ConfigDb) := do
  let (tokenDigest, role) ← cmd.actor.principal "config proposals require an admin actor"
  let proposal ← okOr (find ConfigProposal.id cmd.id db.proposals)
    (.store (.notFound "config proposal"))
  refuse (proposal.status ≠ .pending) (.proposalConflict "proposal is already settled")
  if proposal.expiresAt ≤ now then
    pure (.expired, db.saveProposal { proposal with status := .expired })
  else do
    refuse (tokenDigest = proposal.proposerTokenId)
      (.adminForbidden "confirmation requires a principal distinct from the proposer")
    let object ← patchObject proposal.patch
    object.keys.forM fun key => refuse (roleMayPropose role key = false)
      (AppError.adminForbidden "role does not confirm changes to this config key")
    let (applied, applied') ← (applyPatch now times proposal.patch none db).mapError movedBase
    let confirmed : ConfigProposal := { proposal with
      status := .confirmed, confirmerTokenId := some tokenDigest
      resultingGeneration := some applied.generation }
    pure (.settled confirmed, applied'.saveProposal confirmed)

def rejectProposal (now : Int) (cmd : SettleProposalCmd) (db : ConfigDb) :
    Except AppError (Settlement × ConfigDb) := do
  let _ ← cmd.actor.principal "config proposals require an admin actor"
  let proposal ← okOr (find ConfigProposal.id cmd.id db.proposals)
    (.store (.notFound "config proposal"))
  refuse (proposal.status ≠ .pending) (.proposalConflict "proposal is already settled")
  let status := if proposal.expiresAt ≤ now then ProposalStatus.expired else .rejected
  let settled : ConfigProposal := { proposal with status := status }
  pure (.settled settled, db.saveProposal settled)

inductive ConfigCommand
  | setConfig (cmd : SetConfigCmd)
  | createProposal (id : Uuid) (cmd : CreateProposalCmd)
  | confirmProposal (cmd : SettleProposalCmd)
  | rejectProposal (cmd : SettleProposalCmd)
  deriving DecidableEq

namespace ConfigCommand

/-- The patch a command applies: its own, or the one of the proposal it confirms
before the expiry. -/
def object (now : Int) (db : ConfigDb) : ConfigCommand → Option Object
  | .setConfig cmd => cmd.patch.asObject
  | .confirmProposal cmd =>
    (find ConfigProposal.id cmd.id db.proposals).bind fun p =>
      if now < p.expiresAt then p.patch.asObject else none
  | .createProposal _ _ | .rejectProposal _ => none

/-- The exclusive fences a command takes before the generation row. -/
def fences (now : Int) (db : ConfigDb) (cmd : ConfigCommand) : List String :=
  (cmd.object now db).elim [] fun object => exclusiveFencesForPatch object.keys

end ConfigCommand

def ConfigDb.step (now : Int) (times : MarketId → Option MarketTimes) (db : ConfigDb) :
    ConfigCommand → Except AppError ConfigDb
  | .setConfig cmd => (setConfig now times cmd db).map Prod.snd
  | .createProposal id cmd => (createProposal id now cmd db).map Prod.snd
  | .confirmProposal cmd => (confirmProposal now times cmd db).map Prod.snd
  | .rejectProposal cmd => (rejectProposal now cmd db).map Prod.snd

/-- What a committed command did to the entries: nothing, or one accepted patch. -/
inductive ConfigEffect (now : Int) (times : MarketId → Option MarketTimes) (db db' : ConfigDb)
    (object : Option Object) : Prop
  | kept (hnone : object = none) (h : db'.entries = db.entries)
  | patched (written : Object) (hobject : object = some written)
      (haccepted : Accepted now times written db db')

variable {object : Object}

theorem asObject_of_patchObject {patch : Value} (h : patchObject patch = .ok object) :
    patch.asObject = some object := by
  simp only [patchObject, ok_iff] at h
  obtain ⟨_, hobject, _, -, rfl⟩ := h
  exact hobject

variable {now : Int} {times : MarketId → Option MarketTimes} {db db' : ConfigDb}

theorem Accepted.of_entries {db'' : ConfigDb} (h : Accepted now times object db db')
    (he : db''.entries = db'.entries) : Accepted now times object db db'' :=
  { h with entries := fun k => by rw [he, h.entries k] }

theorem ConfigDb.step_effect {cmd : ConfigCommand} (h : db.step now times cmd = .ok db') :
    ConfigEffect now times db db' (cmd.object now db) := by
  cases cmd with
  | setConfig =>
    simp only [ConfigDb.step, map_snd_eq_ok, setConfig, bind_eq_ok] at h
    obtain ⟨applied, _, -, _, -, _, -, h⟩ := h
    obtain ⟨object, hobject, haccepted, -⟩ := applyPatch_spec h
    exact .patched object (asObject_of_patchObject hobject) haccepted
  | createProposal =>
    simp only [ConfigDb.step, map_snd_eq_ok, createProposal, bind_eq_ok] at h
    obtain ⟨_, _, -, _, -, _, -, _, -, _, -, h⟩ := h
    split at h
    · simp only [ok_iff] at h
      obtain ⟨_, -, -, rfl⟩ := h
      exact .kept rfl rfl
    · simp only [ok_iff] at h
      obtain ⟨_, -, -, rfl⟩ := h
      exact .kept rfl rfl
  | confirmProposal =>
    simp only [ConfigDb.step, map_snd_eq_ok, confirmProposal, ok_iff] at h
    obtain ⟨_, _, -, proposal, hproposal, _, -, h⟩ := h
    split at h
    · rename_i hexpires
      cases h
      refine .kept ?_ rfl
      simp only [ConfigCommand.object, hproposal, Option.bind_some, if_neg (not_lt.2 hexpires)]
    · rename_i hexpires
      simp only [ok_iff] at h
      obtain ⟨_, -, _, -, _, -, ⟨applied, applied'⟩, happly, -, rfl⟩ := h
      obtain ⟨object, hobject, haccepted, -⟩ := applyPatch_spec happly
      refine .patched object ?_ (haccepted.of_entries rfl)
      simp only [ConfigCommand.object, hproposal, Option.bind_some, if_pos (not_le.1 hexpires)]
      exact asObject_of_patchObject hobject
  | rejectProposal =>
    simp only [ConfigDb.step, map_snd_eq_ok, rejectProposal, ok_iff] at h
    obtain ⟨_, _, -, _, -, _, -, -, rfl⟩ := h
    exact .kept rfl rfl

theorem ConfigEffect.lookup_of_notMem {object : Option Object}
    (h : ConfigEffect now times db db' object) {key : String} (hkey : ∀ o ∈ object, key ∉ o.keys) :
    lookup db'.entries key = lookup db.entries key := by
  cases h with
  | kept hnone h => rw [h]
  | patched written hobject haccepted =>
    rw [haccepted.entries, lookup_eq_none.2 (hkey written hobject), Option.none_or]

theorem ConfigEffect.lookup_of_mem (h : ConfigEffect now times db db' (some object))
    {m : String × Value} (hm : m ∈ object.members) : lookup db'.entries m.1 = some m.2 := by
  cases h with
  | kept hnone => cases hnone
  | patched written hobject haccepted =>
    cases hobject
    rw [haccepted.entries, Config.lookup_of_mem object.nodup hm, Option.some_or]

end Opinions.Config
