import Mathlib

/-! A log that is read in batches while others write to it. An entry draws its number
when its writer inserts it and joins the log when the writer commits. A consumer takes the
entries above its cursor, in order, up to a limit, and moves the cursor to the last one. If
at each read no writer holds a number below the end of the batch, no entry is ever passed
over. -/

namespace Opinions.Lib.Numbered

variable {ε : Type} (seq : ε → Int)

def after (cursor : Int) (limit : Nat) (log : List ε) : List ε :=
  ((log.filter fun e => decide (cursor < seq e)).insertionSort
    fun a b => seq a ≤ seq b).take limit

variable {seq} {cursor : Int} {limit : Nat} {log : List ε}

theorem mem_of_mem_after {e : ε} (h : e ∈ after seq cursor limit log) :
    e ∈ log ∧ cursor < seq e := by
  have hsorted := (List.mem_insertionSort _).1 (List.mem_of_mem_take h)
  obtain ⟨hlog, habove⟩ := List.mem_filter.1 hsorted
  exact ⟨hlog, of_decide_eq_true habove⟩

/-- What a batch skips is numbered above all of it. -/
theorem mem_after_of_le (hinj : ∀ a ∈ log, ∀ b ∈ log, seq a = seq b → a = b) {e last : ε}
    (hlast : last ∈ after seq cursor limit log) (he : e ∈ log) (habove : cursor < seq e)
    (hle : seq e ≤ seq last) : e ∈ after seq cursor limit log := by
  have hmem : e ∈ (log.filter fun e => decide (cursor < seq e)).insertionSort
      fun a b => seq a ≤ seq b :=
    (List.mem_insertionSort _).2 (List.mem_filter.2 ⟨he, decide_eq_true habove⟩)
  have hsorted := List.pairwise_insertionSort (fun a b : ε => seq a ≤ seq b)
    (log.filter fun e => decide (cursor < seq e))
  rw [← List.take_append_drop limit (List.insertionSort _ _)] at hmem hsorted
  rcases List.mem_append.1 hmem with htaken | hleft
  · exact htaken
  · have hge : seq last ≤ seq e := (List.pairwise_append.1 hsorted).2.2 last hlast e hleft
    have hsame := hinj e he last (mem_of_mem_after hlast).1 (le_antisymm hle hge)
    rwa [hsame]

/-- What matters of a state: the entries of the log, those of each open writer, the cursor
of each consumer, the batch a session reads for a consumer with its end, and the entries
each consumer has handled. -/
structure View (ι κ ε : Type) where
  next : Int
  log : Set ε
  opened : ι → Set ε
  cursor : κ → Int
  reads : ι → κ → Int → Set ε → Prop
  handled : κ → Set ε

variable {ι κ : Type}

namespace View

/-- Nothing is written or read that was not before, and nothing handled is forgotten. -/
structure Within (v v' : View ι κ ε) : Prop where
  opened : ∀ i, v'.opened i ⊆ v.opened i
  reads : ∀ i c last batch, v'.reads i c last batch → v.reads i c last batch
  handled : ∀ c, v.handled c ⊆ v'.handled c

/-- One step. A read meets the condition that no writer holds a number below its end. -/
inductive Shift (seq : ε → Int) (v v' : View ι κ ε) : Prop
  | quiet (within : Within v v') (next : v'.next = v.next) (log : v'.log = v.log)
      (cursor : v'.cursor = v.cursor)
  | drawn (i : ι) (e : ε) (number : seq e = v.next) (next : v'.next = v.next + 1)
      (log : v'.log = v.log) (cursor : v'.cursor = v.cursor)
      (opened : ∀ j, ∀ a ∈ v'.opened j, a ∈ v.opened j ∨ j = i ∧ a = e)
      (reads : ∀ j c last batch, v'.reads j c last batch → v.reads j c last batch)
      (handled : ∀ c, v.handled c ⊆ v'.handled c)
  | committed (i : ι) (within : Within v v') (next : v'.next = v.next)
      (log : v'.log = v.log ∪ v.opened i) (gone : v'.opened i = ∅) (cursor : v'.cursor = v.cursor)
  | read (i : ι) (c : κ) (last : Int) (batch : Set ε) (next : v'.next = v.next)
      (log : v'.log = v.log) (cursor : v'.cursor = v.cursor)
      (opened : ∀ j, v'.opened j ⊆ v.opened j)
      (reads : ∀ j c' last' batch', v'.reads j c' last' batch' →
        v.reads j c' last' batch' ∨ j = i ∧ c' = c ∧ last' = last ∧ batch' = batch)
      (handled : ∀ c, v.handled c ⊆ v'.handled c) (drawn : last < v.next)
      (covers : ∀ e ∈ v.log, v.cursor c < seq e → seq e ≤ last → e ∈ batch)
      (ahead : ∀ j, ∀ e ∈ v.opened j, last < seq e)
  | advanced (i : ι) (c : κ) (last : Int) (batch : Set ε) (reading : v.reads i c last batch)
      (next : v'.next = v.next) (log : v'.log = v.log) (within : Within v v')
      (cursor : v'.cursor c = last) (others : ∀ c', c' ≠ c → v'.cursor c' = v.cursor c')
      (alone : ∀ j last' batch', ¬v'.reads j c last' batch') (handled : batch ⊆ v'.handled c)

structure Distinct (seq : ε → Int) (v : View ι κ ε) : Prop where
  below : ∀ e ∈ v.log, seq e < v.next
  openedBelow : ∀ i, ∀ e ∈ v.opened i, seq e < v.next
  log : ∀ a ∈ v.log, ∀ b ∈ v.log, seq a = seq b → a = b
  opened : ∀ i, ∀ a ∈ v.opened i, ∀ b ∈ v.log, seq a ≠ seq b
  apart : ∀ i j, ∀ a ∈ v.opened i, ∀ b ∈ v.opened j, seq a = seq b → i = j ∧ a = b

/-- Every entry at or below a cursor is handled, no writer holds a number at or below a
cursor or the end of a batch being read, and a batch has all entries up to its end. -/
structure Lossless (seq : ε → Int) (v : View ι κ ε) : Prop where
  cursor : ∀ c, v.cursor c < v.next
  ahead : ∀ c i, ∀ e ∈ v.opened i, v.cursor c < seq e
  handled : ∀ c, ∀ e ∈ v.log, seq e ≤ v.cursor c → e ∈ v.handled c
  drawn : ∀ i c last batch, v.reads i c last batch → last < v.next
  beyond : ∀ i c last batch, v.reads i c last batch → ∀ j, ∀ e ∈ v.opened j, last < seq e
  covers : ∀ i c last batch, v.reads i c last batch →
    ∀ e ∈ v.log, v.cursor c < seq e → seq e ≤ last → e ∈ batch

/-- All that joins the log from here on is numbered above `n`. -/
structure Beyond (seq : ε → Int) (n : Int) (log : Set ε) (v : View ι κ ε) : Prop where
  next : n < v.next
  opened : ∀ i, ∀ e ∈ v.opened i, n < seq e
  joined : ∀ e ∈ v.log, e ∉ log → n < seq e

variable {seq : ε → Int} {v v' : View ι κ ε}

theorem Distinct.shift (h : Distinct seq v) (hshift : Shift seq v v') : Distinct seq v' := by
  have hkeep (hnext : v'.next = v.next) (hlog : v'.log = v.log)
      (hopened : ∀ i, v'.opened i ⊆ v.opened i) : Distinct seq v' := by
    refine ⟨?_, ?_, ?_, ?_, ?_⟩
    · rw [hlog, hnext]
      exact h.below
    · rw [hnext]
      exact fun i e he => h.openedBelow i e (hopened i he)
    · rw [hlog]
      exact h.log
    · rw [hlog]
      exact fun i a ha => h.opened i a (hopened i ha)
    · exact fun i j a ha b hb => h.apart i j a (hopened i ha) b (hopened j hb)
  cases hshift with
  | quiet within next log | advanced _ _ _ _ _ next log within => exact hkeep next log within.opened
  | read i c last batch next log cursor opened => exact hkeep next log opened
  | drawn i e number next log cursor opened =>
    have hnew : ∀ j, ∀ a ∈ v.opened j, seq a < seq e := by
      intro j a ha
      rw [number]
      exact h.openedBelow j a ha
    refine ⟨?_, ?_, log ▸ h.log, ?_, ?_⟩
    · intro a ha
      have := h.below a (log ▸ ha)
      omega
    · intro j a ha
      rcases opened j a ha with ha | ⟨-, rfl⟩
      · have := h.openedBelow j a ha
        omega
      · omega
    · intro j a ha b hb
      rw [log] at hb
      rcases opened j a ha with ha | ⟨-, rfl⟩
      · exact h.opened j a ha b hb
      · have := h.below b hb
        omega
    · intro j k a ha b hb hsame
      rcases opened j a ha with ha | ⟨rfl, rfl⟩ <;> rcases opened k b hb with hb | ⟨rfl, rfl⟩
      · exact h.apart j k a ha b hb hsame
      · exact absurd hsame (hnew j a ha).ne
      · exact absurd hsame.symm (hnew k b hb).ne
      · exact ⟨rfl, rfl⟩
  | committed i within next log gone =>
    have hother : ∀ j, ∀ a ∈ v'.opened j, a ∈ v.opened j ∧ j ≠ i := by
      intro j a ha
      refine ⟨within.opened j ha, ?_⟩
      rintro rfl
      rwa [gone] at ha
    refine ⟨?_, ?_, ?_, ?_, ?_⟩
    · intro e he
      rw [log] at he
      rw [next]
      exact he.elim (h.below e) (h.openedBelow i e)
    · rw [next]
      exact fun j e he => h.openedBelow j e (within.opened j he)
    · intro a ha b hb hsame
      rw [log] at ha hb
      rcases ha with ha | ha <;> rcases hb with hb | hb
      · exact h.log a ha b hb hsame
      · exact absurd hsame.symm (h.opened i b hb a ha)
      · exact absurd hsame (h.opened i a ha b hb)
      · exact (h.apart i i a ha b hb hsame).2
    · intro j a ha b hb hsame
      rw [log] at hb
      obtain ⟨ha, hne⟩ := hother j a ha
      rcases hb with hb | hb
      · exact h.opened j a ha b hb hsame
      · exact hne (h.apart j i a ha b hb hsame).1
    · exact fun j k a ha b hb => h.apart j k a (within.opened j ha) b (within.opened k hb)

/-- Where a cursor stands, all that joins the log later is above it. -/
theorem Lossless.beyond_cursor (h : Lossless seq v) (c : κ) : Beyond seq (v.cursor c) v.log v :=
  ⟨h.cursor c, h.ahead c, fun _ he hnot => absurd he hnot⟩

theorem Lossless.beyond_end (h : Lossless seq v) {i : ι} {c : κ} {last : Int} {batch : Set ε}
    (hr : v.reads i c last batch) : Beyond seq last v.log v :=
  ⟨h.drawn i c last batch hr, h.beyond i c last batch hr, fun _ he hnot => absurd he hnot⟩

theorem Beyond.shift {n : Int} {log₀ : Set ε} (h : Beyond seq n log₀ v)
    (hshift : Shift seq v v') : Beyond seq n log₀ v' := by
  cases hshift with
  | quiet within next log | advanced i _ _ _ _ next log within =>
    exact ⟨next ▸ h.next, fun i e he => h.opened i e (within.opened i he), log ▸ h.joined⟩
  | read i c last batch next log cursor opened =>
    exact ⟨next ▸ h.next, fun i e he => h.opened i e (opened i he), log ▸ h.joined⟩
  | drawn i e number next log cursor opened =>
    have hnext := h.next
    refine ⟨by omega, fun j a ha => ?_, log ▸ h.joined⟩
    rcases opened j a ha with ha | ⟨-, rfl⟩
    · exact h.opened j a ha
    · omega
  | committed i within next log =>
    refine ⟨next ▸ h.next, fun j e he => h.opened j e (within.opened j he), ?_⟩
    intro e he hnot
    rw [log] at he
    exact he.elim (fun he => h.joined e he hnot) (h.opened i e)

/-- An entry at or below a point that all joining entries are above was there before. -/
theorem Beyond.mem {n : Int} {log : Set ε} (h : Beyond seq n log v) {e : ε} (he : e ∈ v.log)
    (hle : seq e ≤ n) : e ∈ log := by
  by_contra hnot
  exact absurd hle (not_le.2 (h.joined e he hnot))

theorem Lossless.shift (h : Lossless seq v) (hshift : Shift seq v v') : Lossless seq v' := by
  have hcursors := fun c => (h.beyond_cursor c).shift hshift
  have hends : ∀ i c last batch, v.reads i c last batch → Beyond seq last v.log v' :=
    fun i c last batch hr => (h.beyond_end hr).shift hshift
  have hcovers : ∀ i c last batch, v.reads i c last batch →
      ∀ e ∈ v'.log, v.cursor c < seq e → seq e ≤ last → e ∈ batch :=
    fun i c last batch hr e he habove hle =>
      h.covers i c last batch hr e ((hends i c last batch hr).mem he hle) habove hle
  have hhandled (hkept : ∀ c, v.handled c ⊆ v'.handled c) :
      ∀ c, ∀ e ∈ v'.log, seq e ≤ v.cursor c → e ∈ v'.handled c :=
    fun c e he hle => hkept c (h.handled c e ((hcursors c).mem he hle) hle)
  -- the cursors stay, and the batches are old ones or one that was read now
  have hstay (hcursor : v'.cursor = v.cursor) (hkept : ∀ c, v.handled c ⊆ v'.handled c)
      (hreads : ∀ i c last batch, v'.reads i c last batch → v.reads i c last batch ∨
        Beyond seq last v.log v' ∧
          ∀ e ∈ v'.log, v.cursor c < seq e → seq e ≤ last → e ∈ batch) : Lossless seq v' := by
    have hend : ∀ i c last batch, v'.reads i c last batch → Beyond seq last v.log v' :=
      fun i c last batch hr => (hreads i c last batch hr).elim (hends i c last batch) And.left
    refine ⟨?_, ?_, ?_, fun i c last batch hr => (hend i c last batch hr).next,
      fun i c last batch hr => (hend i c last batch hr).opened, ?_⟩
    · exact hcursor ▸ fun c => (hcursors c).next
    · exact hcursor ▸ fun c => (hcursors c).opened
    · exact hcursor ▸ hhandled hkept
    · rw [hcursor]
      exact fun i c last batch hr => (hreads i c last batch hr).elim (hcovers i c last batch) And.right
  cases hshift with
  | quiet within next log cursor =>
    exact hstay cursor within.handled fun i c last batch hr => .inl (within.reads i c last batch hr)
  | drawn i e number next log cursor opened reads handled =>
    exact hstay cursor handled fun j c last batch hr => .inl (reads j c last batch hr)
  | committed i within next log gone cursor =>
    exact hstay cursor within.handled fun j c last batch hr => .inl (within.reads j c last batch hr)
  | read i c last batch next log cursor opened reads handled drawn covers ahead =>
    refine hstay cursor handled fun j c' last' batch' hr => ?_
    rcases reads j c' last' batch' hr with hr | ⟨-, rfl, rfl, rfl⟩
    · exact .inl hr
    · refine .inr ⟨⟨next ▸ drawn, fun k e he => ahead k e (opened k he), ?_⟩, log ▸ covers⟩
      exact fun e he hnot => absurd (log ▸ he) hnot
  | advanced i c last batch reading next log within cursor others alone handled =>
    have hpoint : ∀ c', Beyond seq (v'.cursor c') v.log v' := by
      intro c'
      by_cases hc : c' = c
      · rw [hc, cursor]
        exact hends i c last batch reading
      · rw [others c' hc]
        exact hcursors c'
    refine ⟨fun c' => (hpoint c').next, fun c' => (hpoint c').opened, ?_,
      fun j c' last' batch' hr => (hends j c' last' batch' (within.reads j c' last' batch' hr)).next,
      fun j c' last' batch' hr =>
        (hends j c' last' batch' (within.reads j c' last' batch' hr)).opened, ?_⟩
    · intro c' e he hle
      by_cases hc : c' = c
      · subst hc
        rw [cursor] at hle
        by_cases hbelow : seq e ≤ v.cursor c'
        · exact hhandled within.handled c' e he hbelow
        · exact handled (hcovers i c' last batch reading e he (not_le.1 hbelow) hle)
      · exact hhandled within.handled c' e he (others c' hc ▸ hle)
    · intro j c' last' batch' hr
      have hc : c' ≠ c := by
        rintro rfl
        exact alone j last' batch' hr
      rw [others c' hc]
      exact hcovers j c' last' batch' (within.reads j c' last' batch' hr)

end View

end Opinions.Lib.Numbered
