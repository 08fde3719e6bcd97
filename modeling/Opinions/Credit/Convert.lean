import Opinions.Credit.Lots

/-! Lazy conversion (`convert_then_collect` in `adapters/src/pg/credit_tx.rs`). Every
transaction that locks a user first converts the user's finished lots, in order of age,
and then collects what the user owes. Here the lots are read from their table; on the
ledger this is the conversion the use cases take their lots for as an input. -/

namespace Opinions.Credit

open Lib.Result Model Store Trade

def convertKey (lot : Uuid) : String := "credit-convert:" ++ uuidText lot

def payKey (lot : Uuid) : String := "credit-convert-pay:" ++ uuidText lot

namespace CreditDb

def lotFact (db : CreditDb) (lot : CreditLotRow) : LotFact :=
  { id := uuidText lot.id, amountMicro := lot.amountMicro
    ready := lotReadyToConvert lot (db.allocationsForLot lot.id) }

def converts (db : CreditDb) (lot : CreditLotRow) : Bool :=
  (db.ledger.txnByKey (convertKey lot.id)).isNone ∧ (db.ledger.txnByKey (payKey lot.id)).isNone ∧
    (db.lotFact lot).ready

def convertOne (user : UserId) (now : Instant) (db : CreditDb) (lot : CreditLotRow) :
    Except AppError CreditDb := do
  let ledger ← convertLot user db.ledger (db.lotFact lot)
  let posted : CreditDb := { db with ledger := ledger }
  if db.converts lot then (posted.markLotConverted lot.id now).mapError .store
  else pure posted

def convertThenCollect (user : UserId) (now : Instant) (key : String) (receivables : List Int)
    (db : CreditDb) : Except AppError CreditDb := do
  let converted ← (db.lotsForUser user).foldlM (convertOne user now) db
  let ledger ← autoCollect converted.ledger user key receivables
  pure { converted with ledger := ledger }

variable {user : UserId} {now : Instant} {db db' : CreditDb}

theorem convertOne_spec {lot : CreditLotRow} (h : convertOne user now db lot = .ok db') :
    convertLot user db.ledger (db.lotFact lot) = .ok db'.ledger ∧
      db'.allocations = db.allocations := by
  simp only [convertOne, bind_eq_ok] at h
  obtain ⟨ledger, hledger, h⟩ := h
  split_ifs at h
  · simp only [markLotConverted, ok_iff] at h
    obtain ⟨_, -, rfl⟩ := h
    exact ⟨hledger, rfl⟩
  · cases h
    exact ⟨hledger, rfl⟩

theorem lotFact_congr (h : db'.allocations = db.allocations) (lot : CreditLotRow) :
    db'.lotFact lot = db.lotFact lot := by
  simp only [lotFact, allocationsForLot, h]

theorem foldlM_convertOne {lots : List CreditLotRow}
    (h : lots.foldlM (convertOne user now) db = .ok db') :
    (lots.map db.lotFact).foldlM (convertLot user) db.ledger = .ok db'.ledger := by
  induction lots generalizing db with
  | nil => exact congrArg (fun s => Except.ok s.ledger) (pure_eq_ok.1 h)
  | cons lot lots ih =>
    simp only [List.foldlM_cons, bind_eq_ok] at h
    obtain ⟨mid, hmid, h⟩ := h
    obtain ⟨hledger, hallocations⟩ := convertOne_spec hmid
    have hfacts : lots.map mid.lotFact = lots.map db.lotFact :=
      List.map_congr_left fun lot _ => lotFact_congr hallocations lot
    rw [List.map_cons, List.foldlM_cons, hledger, ok_bind, ← hfacts]
    exact ih h

/-- What the use cases read as the user's lots is what the table says of them. -/
theorem convertThenCollect_ledger {key : String} {receivables : List Int}
    (h : db.convertThenCollect user now key receivables = .ok db') :
    Trade.convertThenCollect db.ledger user key ((db.lotsForUser user).map db.lotFact)
      receivables = .ok db'.ledger := by
  simp only [convertThenCollect, ok_iff] at h
  obtain ⟨converted, hconverted, ledger, hledger, rfl⟩ := h
  rwa [Trade.convertThenCollect, foldlM_convertOne hconverted]

end CreditDb

end Opinions.Credit
