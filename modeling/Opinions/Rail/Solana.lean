import Opinions.Deposit.Machine
import Opinions.Money.Attempts

/-! The outbound rail (`adapters/src/rails/solana.rs`) and the sends that go through it.
The rail keeps the signed bytes it was given for a payment in memory, never for two
transactions of one payment, and broadcasts what it keeps. It is handed the bytes
inside a database transaction, but what it keeps is not rolled back with one. -/

namespace Opinions.Rail

open Lib.Result Model Store Trade Money

abbrev SignedBytes := List UInt8 × String

/-- What `sendTransaction` answers at an endpoint: the text it returned, if any. -/
abbrev Rpc := String → List UInt8 → Except StoreError (Option String)

structure SolanaRails where
  persisted : Uuid → Option SignedBytes

variable {payment : Uuid} {r : SolanaRails} {bytes : List UInt8} {signature : String}

namespace SolanaRails

def new : SolanaRails := { persisted := fun _ => none }

def hold (r : SolanaRails) (payment : Uuid) (signed : SignedBytes) : SolanaRails :=
  { persisted := Function.update r.persisted payment (some signed) }

@[simp] theorem persisted_hold (r : SolanaRails) (payment : Uuid) (signed : SignedBytes) :
    (r.hold payment signed).persisted payment = some signed := Function.update_self ..

theorem hold_of_persisted {signed : SignedBytes} (h : r.persisted payment = some signed) :
    r.hold payment signed = r := by
  rw [hold, ← h, Function.update_eq_self]

def persistSigned (r : SolanaRails) (payment : Uuid) (bytes : List UInt8) (signature : String) :
    Except StoreError SolanaRails :=
  match r.persisted payment with
  | some (existingBytes, existingSignature) =>
    if existingBytes ≠ bytes ∨ existingSignature ≠ signature then
      .error (.conflict "persisted signed bytes changed")
    else .ok r
  | none => .ok (r.hold payment (bytes, signature))

/-- The bytes go to the first endpoint; the result is the bytes that were sent. -/
def broadcast (r : SolanaRails) (identity : RailIdentity) (rpc : Rpc) (payment : Uuid) :
    Except StoreError (List UInt8) := do
  let (bytes, signature) ← okOr (r.persisted payment) (.notFound "persisted signed bytes")
  let endpoint ← okOr identity.rpcEndpoints.head? (.invariant "rail identity has no rpc")
  let returned ← rpc endpoint bytes
  refuse (returned ≠ some signature)
    (.invariant "sendTransaction returned a different signature")
  pure bytes

/-- The rail would take these bytes for the payment: it keeps none, or the same. -/
def Free (r : SolanaRails) (payment : Uuid) (signed : SignedBytes) : Prop :=
  ∀ held, r.persisted payment = some held → held = signed

/-- What the rail keeps is never dropped or changed. -/
def Keeps (r r' : SolanaRails) : Prop :=
  ∀ payment held, r.persisted payment = some held → r'.persisted payment = some held

theorem persistSigned_eq_ok {r' : SolanaRails} :
    r.persistSigned payment bytes signature = .ok r' ↔
      r.Free payment (bytes, signature) ∧ r.hold payment (bytes, signature) = r' := by
  unfold persistSigned Free
  cases hheld : r.persisted payment with
  | none => simp
  | some held =>
    by_cases hsame : held = (bytes, signature)
    · subst hsame
      simp [hold_of_persisted hheld]
    · have hne : held.1 ≠ bytes ∨ held.2 ≠ signature := by
        rwa [← not_and_or, ← Prod.mk.injEq]
      simp [hne, hsame]

theorem persistSigned_of_not_free (h : ¬r.Free payment (bytes, signature)) :
    r.persistSigned payment bytes signature =
      .error (.conflict "persisted signed bytes changed") := by
  unfold Free at h
  push Not at h
  obtain ⟨held, hheld, hne⟩ := h
  have hne' : held.1 ≠ bytes ∨ held.2 ≠ signature := by
    rwa [← not_and_or, ← Prod.mk.injEq]
  rw [persistSigned, hheld]
  exact if_pos hne'

end SolanaRails

end Opinions.Rail
