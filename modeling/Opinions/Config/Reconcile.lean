import Opinions.Config.Committed
import Opinions.Lib.Flight
import Opinions.Lib.Run

/-! The process's copy of the config (`application/src/ops/reconciler.rs`, and
`load_snapshot` of `adapters/src/pg/ops_config_tx.rs`). A turn of the reconciler reads the
generation in one statement and the entries in the next, and installs both when the
generation is above the installed one. Patches commit whenever they like. -/

namespace Opinions.Config.Reconcile

open Lib Lib.Result Lib.Run Model Trade Store

structure ConfigSnapshot where
  generation : Int
  entries : Snapshot

def ConfigSnapshot.default : ConfigSnapshot := ⟨0, []⟩

inductive Phase
  | idle
  | loading
  | generationRead (generation : Int)
  | loaded (generation : Int) (entries : Snapshot)

structure World where
  db : ConfigDb
  watch : ConfigSnapshot
  phase : Phase

inductive Action
  /-- A config command that commits. -/
  | write (now : Int) (times : MarketId → Option MarketTimes) (cmd : ConfigCommand)
  | tick (woken heal : Bool)
  | readGeneration
  | readEntries
  | install
  /-- A backend failure; the turn ends. -/
  | fail

namespace World

def start (db : ConfigDb) : World := { db := db, watch := .default, phase := .idle }

def installed (w : World) (generation : Int) (entries : Snapshot) : World :=
  if generation ≤ w.watch.generation then { w with phase := .idle }
  else { w with watch := ⟨generation, entries⟩, phase := .idle }

def step (w : World) : Action → Except (Blocked AppError) World
  | .write now times cmd => do
    let db ← (w.db.step now times cmd).mapError .refused
    pure { w with db := db }
  | .tick woken heal =>
    match w.phase with
    | .idle => .ok { w with phase := if !woken && !heal then .idle else .loading }
    | _ => .error .notReady
  | .readGeneration =>
    match w.phase with
    | .loading => .ok { w with phase := .generationRead w.db.generation }
    | _ => .error .notReady
  | .readEntries =>
    match w.phase with
    | .generationRead generation => .ok { w with phase := .loaded generation w.db.entries }
    | _ => .error .notReady
  | .install =>
    match w.phase with
    | .loaded generation entries => .ok (w.installed generation entries)
    | _ => .error .notReady
  | .fail => .ok { w with phase := .idle }

end World

/-- A copy that is not ahead of the tables, and equal to them at their generation. -/
structure Behind (generation : Int) (entries : Snapshot) (db : ConfigDb) : Prop where
  le : generation ≤ db.generation
  eq : generation = db.generation → entries = db.entries

theorem Behind.refl (db : ConfigDb) : Behind db.generation db.entries db := ⟨le_rfl, fun _ => rfl⟩

variable {g : Int} {e : Snapshot} {db' : ConfigDb} {db : ConfigDb} {w : World}
  {actions : List Action}

theorem Behind.trans (h : Behind g e db) (h' : Behind db.generation db.entries db') :
    Behind g e db' where
  le := h.le.trans h'.le
  eq := by
    intro heq
    have hle := h.le
    have hle' := h'.le
    rw [h.eq (by omega), h'.eq (by omega)]

variable {now : Int} {times : MarketId → Option MarketTimes}

theorem applyPatch_behind {patch : Value} {expected : Option Int} {applied : AppliedPatch}
    (h : applyPatch now times patch expected db = .ok (applied, db')) :
    Behind db.generation db.entries db' := by
  obtain ⟨_, -, -, rfl | rfl⟩ := applyPatch_spec h
  · exact .refl _
  · exact ⟨by simp [ConfigDb.applyChanges], fun heq => by simp [ConfigDb.applyChanges] at heq⟩

theorem step_behind {cmd : ConfigCommand} (h : db.step now times cmd = .ok db') :
    Behind db.generation db.entries db' := by
  cases cmd with
  | setConfig =>
    simp only [ConfigDb.step, map_snd_eq_ok, setConfig, bind_eq_ok] at h
    obtain ⟨applied, _, -, _, -, _, -, h⟩ := h
    exact applyPatch_behind h
  | createProposal =>
    simp only [ConfigDb.step, map_snd_eq_ok, createProposal, bind_eq_ok] at h
    obtain ⟨_, _, -, _, -, _, -, _, -, _, -, h⟩ := h
    split at h
    all_goals
      simp only [ok_iff] at h
      obtain ⟨_, -, -, rfl⟩ := h
      exact ⟨le_rfl, fun _ => rfl⟩
  | confirmProposal =>
    simp only [ConfigDb.step, map_snd_eq_ok, confirmProposal, bind_eq_ok] at h
    obtain ⟨_, _, -, proposal, -, _, -, h⟩ := h
    split at h
    · cases h
      exact ⟨le_rfl, fun _ => rfl⟩
    · simp only [ok_iff] at h
      obtain ⟨_, -, _, -, _, -, ⟨applied, applied'⟩, happly, -, rfl⟩ := h
      have hbehind := applyPatch_behind happly
      exact ⟨hbehind.le, hbehind.eq⟩
  | rejectProposal =>
    simp only [ConfigDb.step, map_snd_eq_ok, rejectProposal, ok_iff] at h
    obtain ⟨_, _, -, _, -, _, -, -, rfl⟩ := h
    exact ⟨le_rfl, fun _ => rfl⟩

inductive Moved (w : World) : Action → World → Prop
  | wrote (now : Int) (times : MarketId → Option MarketTimes) (cmd : ConfigCommand) (db : ConfigDb)
      (stepped : w.db.step now times cmd = .ok db) :
      Moved w (.write now times cmd) { w with db := db }
  | ticked (woken heal : Bool) (phase : Phase) (gated : phase = .idle ∨ phase = .loading) :
      Moved w (.tick woken heal) { w with phase := phase }
  | readGeneration : Moved w .readGeneration { w with phase := .generationRead w.db.generation }
  | readEntries (g : Int) (reached : w.phase = .generationRead g) :
      Moved w .readEntries { w with phase := .loaded g w.db.entries }
  | kept (g : Int) (e : Snapshot) (reached : w.phase = .loaded g e)
      (old : g ≤ w.watch.generation) : Moved w .install { w with phase := .idle }
  | installed (g : Int) (e : Snapshot) (reached : w.phase = .loaded g e)
      (newer : w.watch.generation < g) :
      Moved w .install { w with watch := ⟨g, e⟩, phase := .idle }
  | failed : Moved w .fail { w with phase := .idle }

variable {w' : World} {a : Action}

theorem World.step_moved (h : w.step a = .ok w') : Moved w a w' := by
  cases a with
  | write now times cmd =>
    simp only [step, ok_iff] at h
    obtain ⟨db, hdb, rfl⟩ := h
    exact .wrote now times cmd db hdb
  | tick woken heal =>
    simp only [step] at h
    split at h <;> cases h
    refine .ticked woken heal _ ?_
    split_ifs
    · exact .inl rfl
    · exact .inr rfl
  | readGeneration =>
    simp only [step] at h
    split at h <;> cases h
    exact .readGeneration
  | readEntries =>
    simp only [step] at h
    split at h <;> cases h
    exact .readEntries _ ‹_›
  | install =>
    simp only [step] at h
    split at h <;> cases h
    rename_i g e hphase
    unfold installed
    split_ifs with hold
    · exact .kept g e hphase hold
    · exact .installed g e hphase (not_le.1 hold)
  | fail =>
    cases h
    exact .failed

/-- Neither the copy nor what the reconciler has read is ahead of the tables. -/
structure Sound (w : World) : Prop where
  watch : Behind w.watch.generation w.watch.entries w.db
  read : ∀ g, w.phase = .generationRead g → g ≤ w.db.generation
  loaded : ∀ g e, w.phase = .loaded g e → Behind g e w.db

theorem sound_start (hseed : 0 < db.generation) : Sound (.start db) where
  watch := ⟨hseed.le, fun heq => absurd heq hseed.ne⟩
  read := fun _ h => by cases h
  loaded := fun _ _ h => by cases h

theorem Sound.idle (h : Sound w) : Sound { w with phase := .idle } :=
  ⟨h.watch, fun _ hp => (by cases hp), fun _ _ hp => (by cases hp)⟩

theorem step_sound (h : Sound w) (hstep : w.step a = .ok w') : Sound w' := by
  cases World.step_moved hstep with
  | wrote now times cmd db stepped =>
    have hbehind := step_behind stepped
    exact ⟨h.watch.trans hbehind, fun g hg => (h.read g hg).trans hbehind.le,
      fun g e hg => (h.loaded g e hg).trans hbehind⟩
  | ticked woken heal phase gated =>
    rcases gated with rfl | rfl
    · exact h.idle
    · exact ⟨h.watch, fun _ hp => (by cases hp), fun _ _ hp => (by cases hp)⟩
  | readGeneration =>
    refine ⟨h.watch, fun g hg => ?_, fun _ _ hp => (by cases hp)⟩
    cases hg
    exact le_rfl
  | readEntries g reached =>
    refine ⟨h.watch, fun _ hp => (by cases hp), fun g' e hg => ?_⟩
    cases hg
    exact ⟨h.read g reached, fun _ => rfl⟩
  | installed g e reached newer =>
    exact ⟨h.loaded g e reached, fun _ hp => (by cases hp), fun _ _ hp => (by cases hp)⟩
  | kept | failed => exact h.idle

theorem sound_run (hseed : 0 < db.generation) (actions : List Action) :
    Sound (run World.step (.start db) actions) :=
  run_preserves (fun _ _ _ _ h hstep => step_sound h hstep) (sound_start hseed)

theorem step_db (hstep : w.step a = .ok w') :
    Behind w.db.generation w.db.entries w'.db ∧ w.watch.generation ≤ w'.watch.generation := by
  cases World.step_moved hstep with
  | wrote now times cmd db stepped => exact ⟨step_behind stepped, le_rfl⟩
  | ticked | readGeneration | readEntries | kept | failed => exact ⟨.refl _, le_rfl⟩
  | installed g e reached newer => exact ⟨.refl _, newer.le⟩

/-- Along a run generations are not lost, and the copy's generation never decreases. -/
theorem run_db (w : World) (actions : List Action) :
    Behind w.db.generation w.db.entries (run World.step w actions).db ∧
      w.watch.generation ≤ (run World.step w actions).watch.generation :=
  run_preserves (P := fun w' => Behind w.db.generation w.db.entries w'.db ∧
      w.watch.generation ≤ w'.watch.generation)
    (fun _ _ _ _ h hstep => ⟨h.1.trans (step_db hstep).1, h.2.trans (step_db hstep).2⟩)
    ⟨.refl _, le_rfl⟩

/-- In the history of the run, `entries` were the committed entries at `generation`. -/
def Committed (db : ConfigDb) (actions : List Action) (generation : Int) (entries : Snapshot) :
    Prop :=
  ∃ before, before <+: actions ∧
    (run World.step (.start db) before).db.generation = generation ∧
    (run World.step (.start db) before).db.entries = entries

theorem Committed.mono {more : List Action} (h : Committed db actions g e) :
    Committed db (actions ++ more) g e := by
  obtain ⟨before, hbefore, hg, he⟩ := h
  exact ⟨before, hbefore.trans (List.prefix_append _ _), hg, he⟩

/-- A generation has one set of entries. -/
theorem Committed.unique {e' : Snapshot} (h : Committed db actions g e)
    (h' : Committed db actions g e') : e = e' := by
  -- one of two moments of a run comes first
  have hordered {xs ys : List Action} (hxy : xs <+: ys)
      (heq : (run World.step (.start db) xs).db.generation =
        (run World.step (.start db) ys).db.generation) :
      (run World.step (.start db) xs).db.entries = (run World.step (.start db) ys).db.entries := by
    obtain ⟨later, rfl⟩ := hxy
    rw [run_append] at heq ⊢
    exact (run_db _ later).1.eq heq
  obtain ⟨xs, hxs, hgx, rfl⟩ := h
  obtain ⟨ys, hys, hgy, rfl⟩ := h'
  rcases List.prefix_or_prefix_of_prefix hxs hys with hxy | hyx
  · exact hordered hxy (hgx.trans hgy.symm)
  · exact (hordered hyx (hgy.trans hgx.symm)).symm

/-- The entries are read at the generation that was read, unless what is read will not
be installed. -/
def untorn (w : World) : Action → Bool
  | .readEntries =>
    match w.phase with
    | .generationRead g => w.db.generation = g ∨ g ≤ w.watch.generation
    | _ => true
  | _ => true

/-- The installed copy was committed, and so is what may still be installed. -/
structure Consistent (db : ConfigDb) (actions : List Action) (w : World) : Prop where
  watch : w.watch = .default ∨ Committed db actions w.watch.generation w.watch.entries
  loaded : ∀ g e, w.phase = .loaded g e → g ≤ w.watch.generation ∨ Committed db actions g e

namespace Consistent

theorem mono (h : Consistent db actions w) (more : List Action) :
    Consistent db (actions ++ more) w where
  watch := h.watch.imp_right Committed.mono
  loaded := fun g e hg => (h.loaded g e hg).imp_right Committed.mono

theorem phase (h : Consistent db actions w) {phase : Phase}
    (hphase : ∀ g e, phase = .loaded g e → w.phase = .loaded g e) :
    Consistent db actions { db := db', watch := w.watch, phase := phase } :=
  ⟨h.watch, fun g e hg => h.loaded g e (hphase g e hg)⟩

end Consistent

theorem step_consistent (h : Consistent db actions (run World.step (.start db) actions))
    (huntorn : untorn (run World.step (.start db) actions) a)
    (hstep : (run World.step (.start db) actions).step a = .ok w') :
    Consistent db (actions ++ [a]) w' := by
  cases World.step_moved hstep with
  | wrote => exact (h.mono _).phase fun _ _ => id
  | ticked woken heal phase gated =>
    refine (h.mono _).phase fun g e hg => ?_
    rcases gated with rfl | rfl <;> cases hg
  | readGeneration | kept | failed => exact (h.mono _).phase fun _ _ hg => (by cases hg)
  | readEntries g reached =>
    refine ⟨(h.mono _).watch, fun g' e hg => ?_⟩
    cases hg
    simp only [untorn, reached, Bool.decide_or, Bool.or_eq_true, decide_eq_true_eq] at huntorn
    rcases huntorn with hsame | hold
    · exact .inr (Committed.mono ⟨actions, List.prefix_refl _, hsame, rfl⟩)
    · exact .inl hold
  | installed g e reached newer =>
    refine ⟨.inr ?_, fun _ _ hg => (by cases hg)⟩
    rcases h.loaded g e reached with hold | hcommitted
    · exact absurd hold (not_le.2 newer)
    · exact hcommitted.mono

theorem consistent_run (db : ConfigDb) (actions : List Action)
    (huntorn : Along World.step (fun w a => untorn w a = true) (.start db) actions) :
    Consistent db actions (run World.step (.start db) actions) := by
  revert huntorn
  refine run_remembers (P := fun cmds w =>
    Along World.step (fun w a => untorn w a = true) (.start db) cmds → Consistent db cmds w)
    (fun _ => ⟨.inl rfl, fun _ _ hg => (by cases hg)⟩) ?_ ?_ actions
  · intro cmds a w' ih hstep halong
    obtain ⟨hbefore, hlast, -⟩ := along_append.1 halong
    exact step_consistent (ih hbefore) hlast hstep
  · intro cmds a ih halong
    exact (ih (along_append.1 halong).1).mono [a]

/-- A heal with nothing written in between. -/
def healTick (woken : Bool) : List Action := [.tick woken true, .readGeneration, .readEntries, .install]

theorem heal_installs (h : Sound w) (hidle : w.phase = .idle) (woken : Bool) :
    (run World.step w (healTick woken)).watch = ⟨w.db.generation, w.db.entries⟩ := by
  have hrun : run World.step w (healTick woken) = w.installed w.db.generation w.db.entries := by
    simp [healTick, attempt, World.step, hidle, World.installed]
  rw [hrun, World.installed]
  split_ifs with hold
  · have heq : w.watch.generation = w.db.generation := le_antisymm h.watch.le hold
    rw [← heq, ← h.watch.eq heq]
  · rfl

/-- Two states of one run at one generation have the same entries; the installed
generation never decreases; a heal with no writer installs what is committed; and where
no patch commits between the two reads of a snapshot that is then installed, the
installed entries are the ones committed at the installed generation. -/
theorem config_snapshots_consistent (db : ConfigDb) (hseed : 0 < db.generation)
    (actions : List Action) :
    (∀ g e e', Committed db actions g e → Committed db actions g e' → e = e') ∧
    (∀ before, before <+: actions → (run World.step (.start db) before).watch.generation ≤
      (run World.step (.start db) actions).watch.generation) ∧
    ((run World.step (.start db) actions).phase = .idle → ∀ woken,
      (run World.step (.start db) (actions ++ healTick woken)).watch =
        ⟨(run World.step (.start db) actions).db.generation,
          (run World.step (.start db) actions).db.entries⟩) ∧
    (Along World.step (fun w a => untorn w a = true) (.start db) actions →
      (run World.step (.start db) actions).watch = .default ∨
      Committed db actions (run World.step (.start db) actions).watch.generation
        (run World.step (.start db) actions).watch.entries) := by
  refine ⟨fun g e e' => Committed.unique, ?_, fun hidle woken => ?_, fun huntorn => ?_⟩
  · rintro before ⟨later, rfl⟩
    rw [run_append]
    exact (run_db _ later).2
  · rw [run_append]
    exact heal_installs (sound_run hseed actions) hidle woken
  · exact (consistent_run db actions huntorn).watch

def sampleWrite : Action :=
  .write 0 (fun _ => none)
    (.setConfig { actor := .admin "token" .ops
                  patch := .obj [("feature_comments", .bool false)]
                  expectedBaseGeneration := none })

/-- A load around a patch, then one after it. -/
def sampleWhole : List Action :=
  [.tick true false, .readGeneration, .readEntries, .install, sampleWrite, .tick true false,
    .readGeneration, .readEntries, .install]

theorem sampleWhole_consistent :
    (run World.step (.start seededConfig) sampleWhole).watch.generation = 2 ∧
    Committed seededConfig sampleWhole
      (run World.step (.start seededConfig) sampleWhole).watch.generation
      (run World.step (.start seededConfig) sampleWhole).watch.entries := by
  have hboth := config_snapshots_consistent seededConfig (by decide) sampleWhole
  have hgeneration : (run World.step (.start seededConfig) sampleWhole).watch.generation = 2 := by
    decide +kernel
  refine ⟨hgeneration, (hboth.2.2.2 (by decide +kernel)).resolve_left fun hdefault => ?_⟩
  rw [hdefault] at hgeneration
  cases hgeneration

/-- The generation is read, a patch commits, the entries are read. -/
def sampleTorn : List Action :=
  [.tick true false, .readGeneration, sampleWrite, .readEntries, .install]

/-- Generation one is installed with the entries of generation two. -/
theorem torn_snapshot_installed :
    (run World.step (.start seededConfig) sampleTorn).watch.generation = 1 ∧
    ¬Committed seededConfig sampleTorn
      (run World.step (.start seededConfig) sampleTorn).watch.generation
      (run World.step (.start seededConfig) sampleTorn).watch.entries := by
  have hgeneration : (run World.step (.start seededConfig) sampleTorn).watch.generation = 1 := by
    decide +kernel
  refine ⟨hgeneration, fun hcommitted => ?_⟩
  rw [hgeneration] at hcommitted
  have hseeded : Committed seededConfig sampleTorn 1 seededEntries :=
    ⟨[], List.nil_prefix, rfl, rfl⟩
  have hentries : (run World.step (.start seededConfig) sampleTorn).watch.entries ≠
      seededEntries := by
    decide +kernel
  exact hentries (hcommitted.unique hseeded)

end Opinions.Config.Reconcile
