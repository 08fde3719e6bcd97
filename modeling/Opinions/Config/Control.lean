import Opinions.Config.Committed
import Opinions.Config.Proposal
import Opinions.Lib.Run

/-! Who changes the config. A direct write refuses sensitive keys, and a proposal is confirmed
only by another principal, so every change row of a sensitive key after the seed has the
proposal it came from, with both of its principals. -/

namespace Opinions.Config

open Lib.Result Lib.Rows Lib.Run Model Trade

/-- A command of an administrator, at a time and with the markets' times of the moment. -/
structure Turn where
  now : Int
  times : MarketId → Option MarketTimes
  cmd : ConfigCommand

def ConfigDb.turn (db : ConfigDb) (t : Turn) : Except AppError ConfigDb :=
  db.step t.now t.times t.cmd

/-- A patch appends the rows of one generation, for keys of its own, or nothing. -/
structure Appended (db : ConfigDb) (object : Object) (generation : Int) (db' : ConfigDb) :
    Prop where
  proposals : db'.proposals = db.proposals
  changes : ∀ r ∈ db'.changes, r ∈ db.changes ∨ r.1 = generation ∧ r.2.key ∈ object.keys

variable {db db' : ConfigDb} {now : Int} {times : MarketId → Option MarketTimes} {patch : Value}
  {object : Object}

theorem applyPatch_appended {expected : Option Int} {applied : AppliedPatch}
    (h : applyPatch now times patch expected db = .ok (applied, db')) :
    ∃ object ∈ patch.asObject, Appended db object applied.generation db' := by
  simp only [applyPatch, ok_iff] at h
  obtain ⟨_, -, _, -, changes, hchanges, _, -, h⟩ := h
  obtain ⟨object, hobject, -, hrows, -⟩ := validatePatch_spec hchanges
  refine ⟨object, asObject_of_patchObject hobject, ?_⟩
  split_ifs at h
  · cases h
    exact ⟨rfl, fun r hr => .inl hr⟩
  · cases h
    refine ⟨rfl, fun r hr => (List.mem_append.1 hr).imp_right fun hr => ?_⟩
    obtain ⟨c, hc, rfl⟩ := List.mem_map.1 hr
    rw [hrows] at hc
    obtain ⟨m, hm, hrow⟩ := List.mem_map.1 (List.reduceOption_mem_iff.1 hc)
    simp only [changeRow, Option.ite_none_left_eq_some, Option.some.injEq] at hrow
    exact ⟨rfl, hrow.2 ▸ List.mem_map_of_mem hm⟩

/-- The proposal behind the change of a key in a generation: made by a role that may, and
confirmed by another principal. -/
structure Confirmed (p : ConfigProposal) (generation : Int) (key : String) : Prop where
  status : p.status = .confirmed
  result : p.resultingGeneration = some generation
  distinct : ∃ token ∈ p.confirmerTokenId, token ≠ p.proposerTokenId
  covers : ∃ o ∈ p.patch.asObject, key ∈ o.keys
  role : roleMayPropose p.proposerRole key

structure Controlled (db : ConfigDb) : Prop where
  ids : (db.proposals.map ConfigProposal.id).Nodup
  roles : ∀ p ∈ db.proposals, ∀ o ∈ p.patch.asObject, ∀ key ∈ o.keys,
    roleMayPropose p.proposerRole key
  rows : ∀ r ∈ db.changes, 1 < r.1 → isSensitive r.2.key →
    ∃ p ∈ db.proposals, Confirmed p r.1 r.2.key

/-- Settling a pending proposal leaves the confirmed ones alone. -/
theorem Controlled.saveProposal {p q : ConfigProposal} (h : Controlled db)
    (hp : find ConfigProposal.id q.id db.proposals = some p) (hpending : ¬p.status ≠ .pending) :
    Controlled (db.saveProposal q) := by
  have hids : (db.saveProposal q).proposals.map ConfigProposal.id =
      db.proposals.map ConfigProposal.id := map_key_update fun _ => rfl
  refine ⟨hids ▸ h.ids, fun x hx => ?_, fun r hr hlate hsensitive => ?_⟩
  · obtain ⟨y, hy, rfl⟩ := mem_update.1 hx
    split_ifs <;> exact h.roles y hy
  · obtain ⟨y, hy, hconfirmed⟩ := h.rows r hr hlate hsensitive
    refine ⟨y, mem_update.2 ⟨y, hy, if_neg fun hid => ?_⟩, hconfirmed⟩
    obtain rfl := Option.mem_unique (find_of_mem h.ids hy) (hid ▸ hp)
    cases (not_not.1 hpending).symm.trans hconfirmed.status

theorem Controlled.appended {generation : Int} (h : Controlled db)
    (happend : Appended db object generation db')
    (hkeys : ∀ key ∈ object.keys, isSensitive key →
      ∃ p ∈ db.proposals, Confirmed p generation key) : Controlled db' := by
  refine ⟨happend.proposals ▸ h.ids, happend.proposals ▸ h.roles, fun r hr hlate hsensitive => ?_⟩
  rw [happend.proposals]
  rcases happend.changes r hr with hr | ⟨rfl, hkey⟩
  · exact h.rows r hr hlate hsensitive
  · exact hkeys _ hkey hsensitive

theorem Controlled.step {cmd : ConfigCommand} (h : Controlled db)
    (hstep : db.step now times cmd = .ok db') : Controlled db' := by
  cases cmd with
  | setConfig =>
    simp only [ConfigDb.step, map_snd_eq_ok, setConfig, forM_eq_ok, ok_iff] at hstep
    obtain ⟨applied, _, -, object, hobject, _, hdirect, hstep⟩ := hstep
    obtain ⟨object', hobject', happend⟩ := applyPatch_appended hstep
    obtain rfl := Option.mem_unique hobject' (asObject_of_patchObject hobject)
    refine h.appended happend fun key hkey hsensitive => ?_
    -- a direct write refuses sensitive keys
    have hgate := hdirect key hkey
    simp only [gateDirectKey, ok_iff] at hgate
    obtain ⟨_, -, _, hplain, -⟩ := hgate
    exact absurd hsensitive hplain
  | createProposal id =>
    simp only [ConfigDb.step, map_snd_eq_ok, createProposal, forM_eq_ok, ok_iff] at hstep
    obtain ⟨_, ⟨_, role⟩, -, patch, -, object, hobject, _, hroles, _, -, hstep⟩ := hstep
    split at hstep
    · simp only [ok_iff] at hstep
      obtain ⟨_, -, -, rfl⟩ := hstep
      exact h
    · simp only [ok_iff] at hstep
      obtain ⟨_, hfresh, -, rfl⟩ := hstep
      refine ⟨?_, fun p hp => ?_, fun r hr hlate hsensitive => ?_⟩
      · have hid : id ∉ db.proposals.map ConfigProposal.id := fun hid => hfresh (find_isSome.2 hid)
        simpa [List.nodup_append, h.ids] using hid
      · rcases mem_concat.1 hp with hp | rfl
        · exact h.roles p hp
        · intro o ho key hkey
          obtain rfl := Option.mem_unique ho (asObject_of_patchObject hobject)
          simpa using hroles key hkey
      · obtain ⟨p, hp, hconfirmed⟩ := h.rows r hr hlate hsensitive
        exact ⟨p, List.mem_append_left _ hp, hconfirmed⟩
  | confirmProposal =>
    simp only [ConfigDb.step, map_snd_eq_ok, confirmProposal, ok_iff] at hstep
    obtain ⟨_, ⟨token, _⟩, -, p, hp, _, hpending, hstep⟩ := hstep
    have hid := key_of_find hp
    split_ifs at hstep
    · cases hstep
      exact h.saveProposal (hid ▸ hp) hpending
    · simp only [ok_iff] at hstep
      obtain ⟨_, hother, _, -, _, -, ⟨applied, mid⟩, happly, -, rfl⟩ := hstep
      obtain ⟨object, hobject, happend⟩ := applyPatch_appended happly
      have hsaved := h.saveProposal (q := { p with
        status := .confirmed, confirmerTokenId := some token
        resultingGeneration := some applied.generation }) (hid ▸ hp) hpending
      refine hsaved.appended ⟨?_, happend.changes⟩ fun key hkey _ => ?_
      · rw [ConfigDb.saveProposal, happend.proposals]
        rfl
      · exact ⟨_, mem_update.2 ⟨p, mem_of_find hp, if_pos rfl⟩, rfl, rfl, ⟨token, rfl, hother⟩,
          ⟨object, hobject, hkey⟩, h.roles p (mem_of_find hp) object hobject key hkey⟩
  | rejectProposal =>
    simp only [ConfigDb.step, map_snd_eq_ok, rejectProposal, ok_iff] at hstep
    obtain ⟨_, _, -, p, hp, _, hpending, -, rfl⟩ := hstep
    exact h.saveProposal (key_of_find hp ▸ hp) hpending

/-- In every run of the administrators' commands from the seeded config, every change of a
sensitive key after the seed was proposed by one principal and confirmed by another. -/
theorem sensitive_changes_confirmed (turns : List Turn) :
    Controlled (run ConfigDb.turn seededConfig turns) := by
  refine run_preserves (fun _ _ _ _ h hstep => h.step hstep) ⟨List.nodup_nil,
    List.forall_mem_nil _, fun r hr hlate => ?_⟩
  obtain ⟨m, -, rfl⟩ := List.mem_map.1 hr
  exact absurd hlate (lt_irrefl 1)

end Opinions.Config
