import Opinions.Trade.Legs

/-! The publisher's tick (`application/src/content/publisher.rs`). The arms it calls commit
on their own, and what they do is arbitrary here. The loop over the due drafts ends at the
first one that fails, so a draft is attempted only if every draft before it is published. -/

namespace Opinions.Content

open Model Trade

structure DraftId where
  uuid : Uuid
  deriving DecidableEq

/-- A call: its answer, and the stores as its transactions left them. -/
abbrev Call (σ α : Type) := σ → Except AppError α × σ

/-- What the tick calls; `execute` is the publication of one draft. -/
structure Publisher (σ : Type) where
  expireDue : Call σ Nat
  consumeDueCommands : Call σ Nat
  dueDrafts : Call σ (List DraftId)
  execute : DraftId → Call σ Unit
  recordUnfilled : Call σ Bool

structure PublisherSweep where
  expired : Nat
  published : Nat
  slotUnfilled : Bool
  deriving DecidableEq

variable {σ : Type} (p : Publisher σ)

/-- The loop over the due drafts, with those it attempted. -/
def publishDue : Nat → List DraftId → σ → (Except AppError Nat × σ) × List DraftId
  | published, [], s => ((.ok published, s), [])
  | published, draft :: due, s =>
    match p.execute draft s with
    | (.error e, s) => ((.error e, s), [draft])
    | (.ok (), s) =>
      if 4294967295 < published + 1 then ((.error .overflow, s), [draft])
      else
        let (result, attempted) := publishDue (published + 1) due s
        (result, draft :: attempted)

/-- `publisher_tick`, with the drafts it attempted. -/
def publisherTick (s : σ) : (Except AppError PublisherSweep × σ) × List DraftId :=
  match p.expireDue s with
  | (.error e, s) => ((.error e, s), [])
  | (.ok expired, s) =>
    match p.consumeDueCommands s with
    | (.error e, s) => ((.error e, s), [])
    | (.ok commanded, s) =>
      match p.dueDrafts s with
      | (.error e, s) => ((.error e, s), [])
      | (.ok due, s) =>
        match publishDue p commanded due s with
        | ((.error e, s), attempted) => ((.error e, s), attempted)
        | ((.ok published, s), attempted) =>
          if due = [] then
            match p.recordUnfilled s with
            | (.error e, s) => ((.error e, s), attempted)
            | (.ok unfilled, s) => ((.ok ⟨expired, published, unfilled⟩, s), attempted)
          else ((.ok ⟨expired, published, false⟩, s), attempted)

/-- No draft of the batch but the last fails when its turn comes. -/
def OnlyLastFails : List DraftId → σ → Prop
  | draft :: next :: due, s =>
    (p.execute draft s).1 = .ok () ∧ OnlyLastFails (next :: due) (p.execute draft s).2
  | _, _ => True

variable {p} {s : σ} {due : List DraftId}

/-- A draft is reached when the one before it is published. -/
theorem attempts_cons {draft : DraftId} {published : Nat} (hfits : published < 4294967295) :
    (publishDue p published (draft :: due) s).2 =
      draft :: if (p.execute draft s).1 = .ok () then
        (publishDue p (published + 1) due (p.execute draft s).2).2 else [] := by
  rw [publishDue]
  split
  · rename_i e s' h
    simp [h]
  · rename_i s' h
    rw [if_neg (by omega), h, if_pos rfl]

theorem publishDue_attempts_iff {published : Nat} (hfits : published + due.length ≤ 4294967295) :
    (publishDue p published due s).2 = due ↔ OnlyLastFails p due s := by
  induction due generalizing published s with
  | nil => simp [publishDue, OnlyLastFails]
  | cons draft due ih =>
    rw [List.length_cons] at hfits
    rw [attempts_cons (by omega), List.cons_inj_right]
    cases due with
    | nil => simp [publishDue, OnlyLastFails]
    | cons next due =>
      have hrest : published + 1 + (next :: due).length ≤ 4294967295 := by omega
      rw [OnlyLastFails, ← ih hrest]
      split_ifs with hdone <;> simp [hdone]

/-- The tick attempts every draft of its batch exactly if no draft but the last fails. -/
theorem publisherTick_attempts_iff {s₀ s₁ s₂ : σ} {expired commanded : Nat}
    (hexpired : p.expireDue s = (.ok expired, s₀))
    (hcommanded : p.consumeDueCommands s₀ = (.ok commanded, s₁))
    (hdue : p.dueDrafts s₁ = (.ok due, s₂)) (hfits : commanded + due.length ≤ 4294967295) :
    (publisherTick p s).2 = due ↔ OnlyLastFails p due s₂ := by
  rw [← publishDue_attempts_iff hfits, publisherTick, hexpired]
  dsimp only
  rw [hcommanded]
  dsimp only
  rw [hdue]
  dsimp only
  split
  · rename_i h
    rw [h]
  · rename_i h
    rw [h]
    split_ifs
    · split <;> rfl
    · rfl

/-- The stores are the published drafts; both drafts are due until they are published, and
`broken` never is. -/
def pair (broken : Option DraftId) : Publisher (List DraftId) where
  expireDue := fun s => (.ok 0, s)
  consumeDueCommands := fun s => (.ok 0, s)
  dueDrafts := fun s => (.ok ([⟨1⟩, ⟨2⟩].filter fun d => d ∉ s), s)
  execute := fun d s => if some d = broken then (.error .insufficientFunds, s) else (.ok (), s ++ [d])
  recordUnfilled := fun s => (.ok false, s)

theorem publisherTick_attempts_both : (publisherTick (pair none) []).2 = [⟨1⟩, ⟨2⟩] :=
  (publisherTick_attempts_iff (p := pair none) rfl rfl rfl (by decide)).2 ⟨rfl, trivial⟩

/-- The first draft fails and the second, whose publication would succeed, is not attempted;
the tick leaves the stores as they were, so the next one does the same. -/
theorem publisherTick_starves :
    publisherTick (pair (some ⟨1⟩)) [] = ((.error .insufficientFunds, []), [⟨1⟩]) ∧
    (pair (some ⟨1⟩)).dueDrafts [] = (.ok [⟨1⟩, ⟨2⟩], []) ∧
    (pair (some ⟨1⟩)).execute ⟨2⟩ [] = (.ok (), [⟨2⟩]) := by
  decide +kernel

end Opinions.Content
