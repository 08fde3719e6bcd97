import Opinions.Config.Reachable

/-! Taking a generation back (`revert_patch_from_changes` of
`application/src/ops/proposals.rs`). The revert is validated like any patch. The money
keys were in order before; what decides is whether the rule of each changed key, which
measures its step from the new value, allows the step back. -/

namespace Opinions.Config

open Lib.Result Lib.Rows Lib.Run

/-- The key's rule takes the old value, with that key alone at its new value. -/
def stepsBack (snap : Snapshot) (c : ConfigChange) : Bool :=
  ∃ rule ∈ ruleFor c.key, ∃ old ∈ c.old,
    rule.check c.key old (upsert Prod.fst (c.key, c.new) snap) = .ok ()

variable {current members next snap : Snapshot} {changes : List ConfigChange} {c : ConfigChange}
  {patch : Value}

theorem eq_of_lookup (hnd : (snap.map Prod.fst).Nodup)
    (hkeys : next.map Prod.fst = snap.map Prod.fst) (h : ∀ k, lookup next k = lookup snap k) :
    next = snap := by
  refine List.ext_getElem (by simpa using congrArg List.length hkeys) fun i hi hi' => ?_
  have hkey : next[i].1 = snap[i].1 := by
    have := congrArg (·[i]?) hkeys
    simpa only [List.getElem?_map, List.getElem?_eq_getElem hi, List.getElem?_eq_getElem hi',
      Option.map_some, Option.some.injEq] using this
  have hvalue := lookup_of_mem (hkeys ▸ hnd) (List.getElem_mem hi)
  rw [h, hkey, lookup_of_mem hnd (List.getElem_mem hi')] at hvalue
  exact Prod.ext hkey (Option.some.inj hvalue).symm

theorem keys_prospective (h : ∀ m ∈ members, m.1 ∈ current.map Prod.fst) :
    (prospective current members).map Prod.fst = current.map Prod.fst := by
  induction members generalizing current with
  | nil => rfl
  | cons m members ih =>
    have hkeys : (upsert Prod.fst m current).map Prod.fst = current.map Prod.fst := by
      rw [map_key_upsert, if_pos (h m List.mem_cons_self)]
    refine (ih fun m' hm' => ?_).trans hkeys
    rw [hkeys]
    exact h m' (List.mem_cons_of_mem m hm')

theorem nodup_run (patches : List Value) :
    ((run accept publishedSeed patches).map Prod.fst).Nodup := by
  refine run_preserves (P := fun s : Snapshot => (s.map Prod.fst).Nodup) (fun patch _ s s' hs h => ?_)
    (by decide +kernel)
  simp only [accept, ok_iff] at h
  obtain ⟨changes, -, rfl⟩ := h
  exact List.foldlRecOn (motive := fun s : Snapshot => (s.map Prod.fst).Nodup) _ _ hs
    fun s hs m _ => nodup_upsert hs

theorem accept_of_rules (object : Object) (hne : object.members ≠ [])
    (hrules : ∀ m ∈ object.members, ∃ rule, ruleFor m.1 = some rule ∧
      rule.check m.1 m.2 (deltaView current (prospective current object.members) m.1) = .ok ())
    (hcross : checkP7CrossKeys (prospective current object.members) = .ok ()) :
    accept current (.obj object.members) =
      .ok (prospective current (changed current object.members)) := by
  have hobject : (Value.obj object.members).asObject = some object := dif_pos object.sorted
  have hrows : object.members.mapM
      (validateMember current (prospective current object.members)) =
        .ok (object.members.map (changeRow current)) := by
    refine mapM_eq_ok.2 (List.forall₂_map_right_iff.2 (List.forall₂_same.2 fun m hm => ?_))
    exact validateMember_eq_ok.2 ⟨hrules m hm, rfl⟩
  rw [← changeRows_eq_changed]
  simp only [accept, validatePatch, patchObject, hobject, ok_iff]
  exact ⟨_, ⟨object, ⟨object, rfl, (), hne, rfl⟩, _, hrows, (), hcross, rfl⟩, rfl⟩

/-- The rows of an accepted patch that changes existing keys, none of them a pause. -/
structure Generation (snap : Snapshot) (patch : Value) (changes : List ConfigChange) : Prop where
  accepted : validatePatch snap patch = .ok changes
  nonempty : changes ≠ []
  existing : ∀ c ∈ changes, c.old.isSome = true ∧ isPauseKey c.key = false

/-- The entries a generation leaves. -/
def written (snap : Snapshot) (changes : List ConfigChange) : Snapshot :=
  prospective snap (changes.map fun c => (c.key, c.new))

def oldRow (c : ConfigChange) : String × Value := (c.key, c.old.getD .null)

namespace Generation

variable (g : Generation snap patch changes)

include g

theorem sorted : (changes.map fun c => c.key).Pairwise (· < ·) := by
  obtain ⟨object, -, -, rfl, -⟩ := validatePatch_spec g.accepted
  have hkeys := congrArg (List.map Prod.fst) (changeRows_eq_changed snap object.members)
  rw [List.map_map] at hkeys
  exact hkeys ▸ object.sorted.sublist (List.filter_sublist.map Prod.fst)

theorem old (hc : c ∈ changes) : ∃ old, c.old = some old ∧ lookup snap c.key = some old := by
  obtain ⟨old, hold⟩ := Option.isSome_iff_exists.1 (g.existing c hc).1
  refine ⟨old, hold, ?_⟩
  obtain ⟨object, -, -, rfl, -⟩ := validatePatch_spec g.accepted
  obtain ⟨m, -, hm⟩ := List.mem_map.1 (List.reduceOption_mem_iff.1 hc)
  rw [changeRow] at hm
  split at hm
  · cases hm
  · cases hm
    exact hold

theorem revert : revertPatchFromChanges changes = .ok (.obj (changes.map oldRow)) := by
  have hkept : changes.filter (fun c => isPauseKey c.key = false) = changes :=
    List.filter_eq_self.2 fun c hc => decide_eq_true (g.existing c hc).2
  have hrows : changes.mapM revertRow = .ok (changes.map oldRow) := by
    refine mapM_eq_ok.2 (List.forall₂_map_right_iff.2 (List.forall₂_same.2 fun c hc => ?_))
    obtain ⟨old, hold, -⟩ := g.old hc
    simp [revertRow, oldRow, hold]
  simp only [revertPatchFromChanges, hkept, ok_iff]
  exact ⟨(), g.nonempty, _, hrows, (), by simpa using g.nonempty, rfl⟩

/-- The rows of the revert. -/
def back : Object := ⟨changes.map oldRow, by rw [List.map_map]; exact g.sorted⟩

theorem nodup : ((changes.map fun c => (c.key, c.new)).map Prod.fst).Nodup := by
  rw [List.map_map]
  exact g.sorted.imp fun h => ne_of_lt h

theorem keys_back {rows : Snapshot} (h : rows.Sublist g.back.members) :
    (prospective (written snap changes) rows).map Prod.fst = snap.map Prod.fst := by
  have hmem : ∀ c ∈ changes, c.key ∈ snap.map Prod.fst := by
    intro c hc
    obtain ⟨old, -, hold⟩ := g.old hc
    exact List.mem_map_of_mem (mem_of_lookup hold)
  have hkeys : (written snap changes).map Prod.fst = snap.map Prod.fst :=
    keys_prospective (List.forall_mem_map.2 hmem)
  refine (keys_prospective fun m hm => ?_).trans hkeys
  obtain ⟨c, hc, rfl⟩ := List.mem_map.1 (h.subset hm)
  exact hkeys ▸ hmem c hc

theorem lookup_back (k : String) :
    (lookup g.back.members k).or (lookup (written snap changes) k) = lookup snap k := by
  cases hback : lookup g.back.members k with
  | some =>
    obtain ⟨c, hc, hrow⟩ := List.mem_map.1 (mem_of_lookup hback)
    obtain ⟨old, hold, hsnap⟩ := g.old hc
    cases hrow
    simp [hold, hsnap]
  | none =>
    have hnew : lookup (changes.map fun c => (c.key, c.new)) k = none := by
      rw [lookup_eq_none, List.map_map]
      rwa [lookup_eq_none, back, List.map_map] at hback
    rw [written, lookup_prospective g.nodup, hnew]
    rfl

/-- The rule of the revert's row reads the entries before, with the key at its new value. -/
theorem rule_back (hc : c ∈ changes) :
    (∃ rule, ruleFor c.key = some rule ∧
      rule.check c.key (oldRow c).2 (deltaView (written snap changes) snap c.key) = .ok ()) ↔
        stepsBack snap c := by
  have hnew : lookup (written snap changes) c.key = some c.new := by
    rw [written, lookup_prospective g.nodup,
      lookup_of_mem g.nodup (List.mem_map_of_mem (f := fun c => (c.key, c.new)) hc)]
    rfl
  obtain ⟨old, hold, -⟩ := g.old hc
  simp [stepsBack, oldRow, deltaView, hnew, hold]

theorem accept_iff (hnd : (snap.map Prod.fst).Nodup) (hcross : checkP7CrossKeys snap = .ok ()) :
    accept (written snap changes) (.obj g.back.members) = .ok snap ↔
      ∀ c ∈ changes, stepsBack snap c := by
  have hback : prospective (written snap changes) g.back.members = snap := by
    refine eq_of_lookup hnd (g.keys_back (List.Sublist.refl _)) fun k => ?_
    rw [lookup_prospective g.back.nodup, g.lookup_back]
  have hchanged : prospective (written snap changes)
      (changed (written snap changes) g.back.members) = snap := by
    refine eq_of_lookup hnd (g.keys_back List.filter_sublist) fun k => ?_
    rw [lookup_written, g.lookup_back]
  constructor
  · intro h c hc
    obtain ⟨object, hobject, hpassed⟩ := accept_spec h
    obtain rfl : g.back = object := Option.some.inj ((dif_pos g.back.sorted).symm.trans hobject)
    have hrule := hpassed.rules (oldRow c) (List.mem_map_of_mem hc)
    rw [hback] at hrule
    exact (g.rule_back hc).1 hrule
  · intro h
    rw [accept_of_rules g.back ?_ ?_ (by rwa [hback]), hchanged]
    · simpa [back] using g.nonempty
    · rw [hback]
      exact List.forall_mem_map.2 fun c hc => (g.rule_back hc).2 (h c hc)

end Generation

end Opinions.Config
