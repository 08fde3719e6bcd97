import Opinions.Config.Catalog
import Opinions.Trade.Legs

/-! Writing the config: a patch is validated against the snapshot it would give,
its pause keys against the market's times, and its changes are applied with one
new generation (`validate_patch`, `exclusive_fences_for_patch` of
`application/src/ops/config.rs` and `apply_patch_in_tx` of
`application/src/ops/set_config.rs`). -/

namespace Opinions.Config

open Lib.Result Lib.Rows Model Trade Store

/-- The members of a JSON object, in key order and without repeats. -/
structure Object where
  members : Snapshot
  sorted : (members.map Prod.fst).Pairwise (· < ·)

def Value.asObject : Value → Option Object
  | .obj members =>
    if h : (members.map Prod.fst).Pairwise (· < ·) then some ⟨members, h⟩ else none
  | _ => none

/-- The times of a market that pause writes are checked against. -/
structure MarketTimes where
  tallyHiddenAt : Int
  closesAt : Int

inductive ProposalStatus
  | pending
  | confirmed
  | rejected
  | expired
  deriving DecidableEq

structure ConfigProposal where
  id : Uuid
  idempotencyKey : String
  patch : Value
  baseGeneration : Int
  proposerTokenId : String
  proposerRole : AdminRole
  reason : String
  status : ProposalStatus
  expiresAt : Int
  confirmerTokenId : Option String
  resultingGeneration : Option Int

/-- The config tables: the singleton generation, the entries, the generation
headers, one change row per changed key, and the proposals. -/
structure ConfigDb where
  generation : Int
  entries : Snapshot
  generations : List Int
  changes : List (Int × ConfigChange)
  proposals : List ConfigProposal

namespace ConfigDb

def fenceConfigValue (db : ConfigDb) (key : String) : Option Value := lookup db.entries key

/-- `fence_changes_since`: the changes after a generation, unless the history that
far back is pruned. -/
def fenceChangesSince (db : ConfigDb) (generation : Int) : Int × Option (List ConfigChange) :=
  let watermark := db.generations.min?.getD 1
  if generation + 1 < watermark then (db.generation, none)
  else
    (db.generation, some ((db.changes.filter fun c => decide (generation < c.1)).map Prod.snd))

/-- `apply_changes`: the header, the change rows, the entries and the generation. -/
def applyChanges (db : ConfigDb) (generation : Int) (changes : List ConfigChange) : ConfigDb :=
  { db with
    generation := generation
    entries := (changes.map fun c => (c.key, c.new)).foldl (fun s m => upsert Prod.fst m s) db.entries
    generations := db.generations ++ [generation]
    changes := db.changes ++ changes.map fun c => (generation, c) }

end ConfigDb

/-- The limits that tie several money keys together. -/
def checkP7CrossKeys (snap : Snapshot) : Except String Unit := do
  match priorI64 snap "withdraw_min_micro", priorI64 snap "withdraw_auto_approve_micro",
      priorI64 snap "dest_warm_floor_micro", priorI64 snap "withdraw_dual_control_micro",
      priorI64 snap "withdraw_max_micro", priorI64 snap "dest_daily_limit_micro",
      priorI64 snap "withdraw_daily_limit_micro", priorI64 snap "hot_wallet_daily_limit_micro" with
  | some low, some auto, some floor, some dual, some high, some dest, some daily, some hot =>
    let chain : Prop := dual ≤ high ∧ high ≤ dest ∧ dest ≤ daily ∧ daily ≤ hot
    if auto = 0 then
      refuse (¬(low ≤ dual ∧ chain)) "dual <= max <= dest_daily <= daily <= hot_wallet"
    else do
      refuse (¬(low ≤ auto ∧ auto < floor)) "min <= auto < dest_warm_floor"
      refuse (¬(auto ≤ dual ∧ chain)) "auto <= dual <= max <= dest_daily <= daily <= hot_wallet"
  | _, _, _, _, _, _, _, _ =>
    .ok ()
  match priorI64 snap "aml_structuring_floor_micro",
      priorI64 snap "aml_structuring_threshold_micro" with
  | some floor, some threshold =>
    refuse (¬(0 < floor ∧ floor < threshold)) "0 < aml_structuring_floor < threshold"
  | _, _ =>
    .ok ()

def patchObject (patch : Value) : Except AppError Object := do
  let object ← okOr patch.asObject (.configInvalid "patch" "patch must be a JSON object")
  refuse (object.members = []) (.configInvalid "patch" "patch must not be empty")
  pure object

def Object.keys (object : Object) : List String := object.members.map Prod.fst

def prospective (current members : Snapshot) : Snapshot :=
  members.foldl (fun snap m => upsert Prod.fst m snap) current

/-- The prospective snapshot with the key's own committed value. -/
def deltaView (current snap : Snapshot) (key : String) : Snapshot :=
  match lookup current key with
  | some prior => upsert Prod.fst (key, prior) snap
  | none => snap.filter fun m => decide (m.1 ≠ key)

def changeRow (current : Snapshot) (m : String × Value) : Option ConfigChange :=
  let old := lookup current m.1
  if old = some m.2 then none else some { key := m.1, old := old, new := m.2 }

def validateMember (current snap : Snapshot) (m : String × Value) :
    Except AppError (Option ConfigChange) := do
  let rule ← okOr (ruleFor m.1) (.configInvalid m.1 "unknown config key")
  (rule.check m.1 m.2 (deltaView current snap m.1)).mapError (AppError.configInvalid m.1)
  pure (changeRow current m)

def validatePatch (current : Snapshot) (patch : Value) : Except AppError (List ConfigChange) := do
  let object ← patchObject patch
  let snap := prospective current object.members
  let changes ← object.members.mapM (validateMember current snap)
  (checkP7CrossKeys snap).mapError (AppError.configInvalid "cross_key")
  pure changes.reduceOption

/-- The market-scoped fence of a pause key, named by the text of the key. -/
def scopedFence (key : String) : Option String :=
  match stripFamily "market_paused:" key with
  | some id => some (scopedKey "trading-market:" id)
  | none => (stripFamily "voting_paused:" key).map (scopedKey "voting-market:")

/-- The exclusive fences of a patch: the global one first, then the scoped ones in
name order. -/
def exclusiveFencesForPatch (keys : List String) : List String :=
  let ofMarkets := ((keys.filterMap scopedFence).insertionSort (· ≤ ·)).dedup
  if "trading_paused" ∈ keys then tradingGlobalFence :: ofMarkets else ofMarkets

theorem mem_exclusiveFencesForPatch {keys : List String} {key fence : String} (hkey : key ∈ keys)
    (hfence : scopedFence key = some fence) : fence ∈ exclusiveFencesForPatch keys := by
  have hmem : fence ∈ ((keys.filterMap scopedFence).insertionSort (· ≤ ·)).dedup :=
    List.mem_dedup.2 ((List.mem_insertionSort _).2 (List.mem_filterMap.2 ⟨key, hkey, hfence⟩))
  simp only [exclusiveFencesForPatch]
  split
  · exact List.mem_cons_of_mem _ hmem
  · exact hmem

theorem tradingGlobalFence_mem {keys : List String} (hkey : "trading_paused" ∈ keys) :
    tradingGlobalFence ∈ exclusiveFencesForPatch keys := by
  simp only [exclusiveFencesForPatch, if_pos hkey, List.mem_cons, true_or]

theorem scopedFence_marketPaused (suffix : List Char) :
    scopedFence (scopedKey "market_paused:" suffix) =
      some (scopedKey "trading-market:" suffix) := by
  simp only [scopedFence, stripFamily_scopedKey]

theorem scopedFence_votingPaused (suffix : List Char) :
    scopedFence (scopedKey "voting_paused:" suffix) =
      some (scopedKey "voting-market:" suffix) := by
  have hother : stripFamily "market_paused:" (scopedKey "voting_paused:" suffix) = none := by
    have hfirst : ¬"market_paused:".toList <+: "voting_paused:".toList ++ suffix := by
      intro h
      exact absurd (List.cons_prefix_cons.1 h).1 (by decide)
    simp only [stripFamily, scopedKey, String.toList_append, String.toList_ofList, if_neg hfirst]
  simp only [scopedFence, hother, stripFamily_scopedKey, Option.map_some]

def marketOf (suffix : List Char) : Except AppError MarketId :=
  okOr ((Uuid.parseStr suffix).map MarketId.mk)
    (.configInvalid (String.ofList suffix) "pause key requires a market UUID suffix")

def timesOf (times : MarketId → Option MarketTimes) (suffix : List Char) :
    Except AppError MarketTimes := do
  let market ← marketOf suffix
  okOr (times market) (.store (.notFound "market"))

def pauseTiming (now : Int) (times : MarketId → Option MarketTimes) (m : String × Value) :
    Except AppError Unit :=
  match stripFamily "market_paused:" m.1, stripFamily "voting_paused:" m.1 with
  | some id, _ => do
    let row ← timesOf times id
    refuse (pauseInForce (some m.2) = false ∧ row.tallyHiddenAt < now ∧ now ≤ row.closesAt)
      (.proposalConflict "trading resume is forbidden inside the hidden window")
  | none, some id => do
    let row ← timesOf times id
    refuse (pauseInForce (some m.2) = true ∧ row.tallyHiddenAt ≤ now)
      (.proposalConflict "a voting pause cannot be written once the hidden window began")
  | none, none => .ok ()

structure AppliedPatch where
  generation : Int
  changes : List ConfigChange

/-- `apply_patch_in_tx`, under the exclusive fences and the generation row. -/
def applyPatch (now : Int) (times : MarketId → Option MarketTimes) (patch : Value)
    (expectedBaseGeneration : Option Int) (db : ConfigDb) :
    Except AppError (AppliedPatch × ConfigDb) := do
  let object ← patchObject patch
  refuse (∃ expected ∈ expectedBaseGeneration, expected ≠ db.generation)
    (.staleConfig (expectedBaseGeneration.getD 0) db.generation)
  let changes ← validatePatch db.entries patch
  object.members.forM (pauseTiming now times)
  if changes = [] then pure ({ generation := db.generation, changes := [] }, db)
  else
    let next := db.generation + 1
    pure ({ generation := next, changes := changes }, db.applyChanges next changes)

theorem lookup_upsert (snap : Snapshot) (m : String × Value) (k : String) :
    lookup (upsert Prod.fst m snap) k = if k = m.1 then some m.2 else lookup snap k := by
  rw [lookup, find_upsert, apply_ite (Option.map _)]
  rfl

theorem lookup_cons (m : String × Value) (snap : Snapshot) (k : String) :
    lookup (m :: snap) k = if m.1 = k then some m.2 else lookup snap k := by
  simp only [lookup, find_cons]
  split <;> rfl

variable {snap : Snapshot} {k : String} {m : String × Value} {current members : Snapshot}
  {patch : Value}

theorem lookup_eq_none : lookup snap k = none ↔ k ∉ snap.map Prod.fst := by
  simp only [lookup, Option.map_eq_none_iff, find_eq_none, List.mem_map, not_exists, not_and]

theorem mem_of_lookup {v : Value} (h : lookup snap k = some v) : (k, v) ∈ snap := by
  obtain ⟨r, hr, rfl⟩ := Option.map_eq_some_iff.1 h
  obtain rfl := key_of_find hr
  exact mem_of_find hr

theorem lookup_of_mem (hnd : (snap.map Prod.fst).Nodup) (h : m ∈ snap) :
    lookup snap m.1 = some m.2 := by
  simp only [lookup, find_of_mem hnd h, Option.map_some]

/-- Members shadow the entries they are put over. -/
theorem lookup_prospective (hnd : (members.map Prod.fst).Nodup) (current : Snapshot) (k : String) :
    lookup (prospective current members) k = (lookup members k).or (lookup current k) := by
  induction members generalizing current with
  | nil => rfl
  | cons m ms ih =>
    obtain ⟨hfresh, hnd⟩ := List.nodup_cons.1 hnd
    have htail : lookup (prospective current (m :: ms)) k =
        (lookup ms k).or (lookup (upsert Prod.fst m current) k) := ih hnd _
    rw [htail, lookup_upsert, lookup_cons]
    by_cases hk : m.1 = k
    · subst hk
      simp [lookup_eq_none.2 hfresh]
    · simp [hk, Ne.symm hk]

theorem Object.nodup (object : Object) : (object.members.map Prod.fst).Nodup :=
  object.sorted.imp fun h => ne_of_lt h

def changed (current members : Snapshot) : Snapshot :=
  members.filter fun m => decide (lookup current m.1 ≠ some m.2)

theorem lookup_changed (hnd : (members.map Prod.fst).Nodup) (current : Snapshot) (k : String) :
    (lookup (changed current members) k).or (lookup current k) =
      (lookup members k).or (lookup current k) := by
  have hnd' : ((changed current members).map Prod.fst).Nodup :=
    hnd.sublist (List.filter_sublist.map Prod.fst)
  cases hm : lookup members k with
  | none =>
    have hout : lookup (changed current members) k = none :=
      lookup_eq_none.2 fun h => lookup_eq_none.1 hm ((List.filter_sublist.map Prod.fst).subset h)
    rw [hout]
  | some v =>
    have hmem : (k, v) ∈ members := mem_of_lookup hm
    by_cases hsame : lookup current k = some v
    · -- an unchanged member is the committed value
      cases hc : lookup (changed current members) k with
      | none => simp [hsame]
      | some w =>
        have hw : lookup members k = some w :=
          lookup_of_mem hnd (List.mem_of_mem_filter (mem_of_lookup hc))
        simp [← hw, hm]
    · have hc : (k, v) ∈ changed current members :=
        List.mem_filter.2 ⟨hmem, decide_eq_true hsame⟩
      simp [lookup_of_mem hnd' hc]

/-- An accepted patch: every member passed its rule and the pause timing, and the
entries are the old ones with the members over them. -/
structure Accepted (now : Int) (times : MarketId → Option MarketTimes) (object : Object)
    (db db' : ConfigDb) : Prop where
  rules : ∀ m ∈ object.members, ∃ rule, ruleFor m.1 = some rule ∧
    rule.check m.1 m.2 (deltaView db.entries (prospective db.entries object.members) m.1) = .ok ()
  timing : ∀ m ∈ object.members, pauseTiming now times m = .ok ()
  entries : ∀ k, lookup db'.entries k = (lookup object.members k).or (lookup db.entries k)

theorem validateMember_eq_ok {c : Option ConfigChange} :
    validateMember current snap m = .ok c ↔
      (∃ rule, ruleFor m.1 = some rule ∧
        rule.check m.1 m.2 (deltaView current snap m.1) = .ok ()) ∧
      c = changeRow current m := by
  simp only [validateMember, ok_iff]
  constructor
  · rintro ⟨rule, hrule, _, hcheck, rfl⟩
    exact ⟨⟨rule, hrule, hcheck⟩, rfl⟩
  · rintro ⟨⟨rule, hrule, hcheck⟩, rfl⟩
    exact ⟨rule, hrule, (), hcheck, rfl⟩

theorem changeRows_eq_changed (current members : Snapshot) :
    ((members.map (changeRow current)).reduceOption.map fun c => (c.key, c.new)) =
      changed current members := by
  induction members with
  | nil => rfl
  | cons m ms ih =>
    rw [changed] at ih ⊢
    by_cases hsame : lookup current m.1 = some m.2
    · have hrow : changeRow current m = none := if_pos hsame
      simp only [List.map_cons, hrow, List.reduceOption_cons_of_none, ih]
      simp [hsame]
    · have hrow : changeRow current m = some ⟨m.1, lookup current m.1, m.2⟩ := if_neg hsame
      simp only [List.map_cons, hrow, List.reduceOption_cons_of_some, ih]
      simp [hsame]

theorem lookup_written (object : Object) (current : Snapshot) (k : String) :
    lookup (prospective current (changed current object.members)) k =
      (lookup object.members k).or (lookup current k) := by
  have hnd : ((changed current object.members).map Prod.fst).Nodup :=
    object.nodup.sublist (List.filter_sublist.map Prod.fst)
  rw [lookup_prospective hnd, lookup_changed object.nodup]

theorem validatePatch_spec {changes : List ConfigChange}
    (h : validatePatch current patch = .ok changes) :
    ∃ object, patchObject patch = .ok object ∧
      (∀ m ∈ object.members, ∃ rule, ruleFor m.1 = some rule ∧
        rule.check m.1 m.2 (deltaView current (prospective current object.members) m.1) =
          .ok ()) ∧
      changes = (object.members.map (changeRow current)).reduceOption ∧
      checkP7CrossKeys (prospective current object.members) = .ok () := by
  simp only [validatePatch, ok_iff] at h
  obtain ⟨object, hobject, rows, hrows, _, hcross, rfl⟩ := h
  refine ⟨object, hobject, fun m hm => ?_, ?_, hcross⟩
  · obtain ⟨c, -, hc⟩ := (mem_of_mapM hrows).1 m hm
    exact (validateMember_eq_ok.1 hc).1
  · have hmap : rows.map id = object.members.map (changeRow current) :=
      map_eq_of_mapM hrows fun m c hc => (validateMember_eq_ok.1 hc).2
    rw [← hmap, List.map_id]

/-- An accepted patch with changes makes one new generation; one without any leaves
the tables as they are. -/
theorem applyPatch_spec {now : Int} {times : MarketId → Option MarketTimes} {expected : Option Int}
    {db db' : ConfigDb} {applied : AppliedPatch}
    (h : applyPatch now times patch expected db = .ok (applied, db')) :
    ∃ object, patchObject patch = .ok object ∧ Accepted now times object db db' ∧
      (db' = db ∨ db' = db.applyChanges (db.generation + 1) applied.changes) := by
  simp only [applyPatch, forM_eq_ok, ok_iff] at h
  obtain ⟨object, hobject, _, -, changes, hchanges, _, htiming, h⟩ := h
  obtain ⟨object', hobject', hrules, hrows, -⟩ := validatePatch_spec hchanges
  have hwritten := changeRows_eq_changed db.entries object'.members
  rw [← hrows] at hwritten
  obtain rfl : object' = object := Except.ok.inj (hobject'.symm.trans hobject)
  split at h
  · rename_i hnone
    cases h
    refine ⟨object', hobject, ⟨hrules, htiming, fun k => ?_⟩, .inl rfl⟩
    have hstill : changed db.entries object'.members = [] := by rw [← hwritten, hnone]; rfl
    rw [← lookup_written, hstill]
    rfl
  · cases h
    refine ⟨object', hobject, ⟨hrules, htiming, fun k => ?_⟩, .inr rfl⟩
    rw [← lookup_written, ← hwritten]
    rfl

end Opinions.Config
