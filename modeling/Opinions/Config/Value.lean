import Opinions.Lib.Checked

/-! JSON values of the ops config (`serde_json::Value`) and the accessors the
config code reads them with. An integer and a number with a fraction or an
exponent are different constructors, as they are to `as_i64` and `as_u64`. -/

namespace Opinions.Config

open Lib.Checked

inductive Value
  | null
  | bool (b : Bool)
  | int (n : Int)
  | float (text : String)
  | str (s : String)
  | arr (items : List Value)
  | obj (fields : List (String × Value))

namespace Value

def asBool : Value → Option Bool
  | .bool b => some b
  | _ => none

def asI64 : Value → Option Int
  | .int n => tryI64 n
  | _ => none

def asU64 : Value → Option Nat
  | .int n => if 0 ≤ n ∧ n < 18446744073709551616 then some n.toNat else none
  | _ => none

def asStr : Value → Option String
  | .str s => some s
  | _ => none

/-- `as_i64_array::<5>`: an array of exactly five integers. -/
def asI64Array5 : Value → Option (Vector Int 5)
  | .arr [a, b, c, d, e] => do
    let a ← a.asI64
    let b ← b.asI64
    let c ← c.asI64
    let d ← d.asI64
    let e ← e.asI64
    pure #v[a, b, c, d, e]
  | _ => none

end Value

mutual

def Value.beq : Value → Value → Bool
  | .null, .null => true
  | .bool a, .bool b => a == b
  | .int a, .int b => a == b
  | .float a, .float b => a == b
  | .str a, .str b => a == b
  | .arr xs, .arr ys => beqItems xs ys
  | .obj xs, .obj ys => beqFields xs ys
  | _, _ => false

def beqItems : List Value → List Value → Bool
  | [], [] => true
  | x :: xs, y :: ys => x.beq y && beqItems xs ys
  | _, _ => false

def beqFields : List (String × Value) → List (String × Value) → Bool
  | [], [] => true
  | (k, x) :: xs, (l, y) :: ys => k == l && x.beq y && beqFields xs ys
  | _, _ => false

end

mutual

theorem Value.beq_iff : ∀ a b : Value, a.beq b ↔ a = b
  | .null, b => by cases b <;> simp [Value.beq]
  | .bool _, b => by cases b <;> simp [Value.beq]
  | .int _, b => by cases b <;> simp [Value.beq]
  | .float _, b => by cases b <;> simp [Value.beq]
  | .str _, b => by cases b <;> simp [Value.beq]
  | .arr xs, b => by cases b <;> simp [Value.beq, beqItems_iff xs]
  | .obj xs, b => by cases b <;> simp [Value.beq, beqFields_iff xs]

theorem beqItems_iff : ∀ xs ys : List Value, beqItems xs ys ↔ xs = ys
  | [], ys => by cases ys <;> simp [beqItems]
  | x :: xs, ys => by cases ys <;> simp [beqItems, Value.beq_iff x, beqItems_iff xs]

theorem beqFields_iff : ∀ xs ys : List (String × Value), beqFields xs ys ↔ xs = ys
  | [], ys => by cases ys <;> simp [beqFields]
  | (k, x) :: xs, [] => by simp [beqFields]
  | (k, x) :: xs, (l, y) :: ys => by
    simp [beqFields, Value.beq_iff x, beqFields_iff xs, and_assoc]

end

instance : DecidableEq Value := fun a b => decidable_of_iff _ (Value.beq_iff a b)

end Opinions.Config
