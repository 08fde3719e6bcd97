import Mathlib

/-! Identifiers and their text. A UUID prints as 32 lowercase hexadecimal digits
in the groups 8-4-4-4-12. Its parser takes that form in either case, the digits
without hyphens, and the hyphenated form in braces or after `urn:uuid:`. -/

namespace Opinions.Model

abbrev Uuid := BitVec 128

structure UserId where
  uuid : Uuid
  deriving DecidableEq

structure MarketId where
  uuid : Uuid
  deriving DecidableEq

instance : LawfulBEq Uuid := inferInstance

instance : LawfulBEq (UserId × MarketId) := inferInstance

variable {ds : List Char}

namespace Uuid

def hexDigits : List Char :=
  ['0', '1', '2', '3', '4', '5', '6', '7', '8', '9', 'a', 'b', 'c', 'd', 'e', 'f']

/-- The lowercase digit of a value below sixteen. -/
def hexChar (n : Nat) : Char := hexDigits.getD n '0'

def hexValue (c : Char) : Option Nat := hexDigits.findIdx? (· == c.toLower)

def digits (u : Uuid) : List Nat :=
  (List.range 32).map fun i => u.toNat / 16 ^ (31 - i) % 16

/-- Groups of 8, 4, 4, 4 and 12 digits joined by hyphens. -/
def hyphenate (ds : List Char) : List Char :=
  ds.take 8 ++ '-' :: ((ds.drop 8).take 4 ++ '-' :: ((ds.drop 12).take 4 ++ '-' ::
    ((ds.drop 16).take 4 ++ '-' :: ds.drop 20)))

/-- The canonical text: what formatting a UUID prints. -/
def text (u : Uuid) : List Char := hyphenate (u.digits.map hexChar)

/-- Exactly 32 hexadecimal digits. -/
def parseSimple (s : List Char) : Option Uuid := do
  let ds ← s.mapM hexValue
  if ds.length = 32 then some (BitVec.ofNat 128 (ds.foldl (fun n d => n * 16 + d) 0)) else none

/-- Hyphens at positions 8, 13, 18 and 23 between hexadecimal digits. -/
def parseHyphenated (s : List Char) : Option Uuid :=
  let ds := s.take 8 ++ (s.drop 9).take 4 ++ (s.drop 14).take 4 ++ (s.drop 19).take 4 ++ s.drop 24
  if hyphenate ds = s then parseSimple ds else none

/-- The accepted spellings, told apart by their length and wrapping. -/
def parseStr (s : List Char) : Option Uuid :=
  if s.length = 32 then parseSimple s
  else if s.length = 36 then parseHyphenated s
  else if s.length = 38 ∧ s.head? = some '{' ∧ s.getLast? = some '}' then
    parseHyphenated ((s.drop 1).take 36)
  else if s.length = 45 ∧ s.take 9 = "urn:uuid:".toList then parseHyphenated (s.drop 9)
  else none

/-- Hexadecimal digits, most significant first, add up to the number. -/
theorem foldl_digits (k x : Nat) :
    ((List.range k).map fun i => x / 16 ^ (k - 1 - i) % 16).foldl (fun n d => n * 16 + d) 0 =
      x % 16 ^ k := by
  induction k generalizing x with
  | zero => simp [Nat.mod_one]
  | succ k ih =>
    have hshift : ((List.range k).map fun i => x / 16 ^ (k + 1 - 1 - i) % 16) =
        (List.range k).map fun i => x / 16 / 16 ^ (k - 1 - i) % 16 := by
      refine List.map_congr_left fun i hi => ?_
      have hlt : i < k := List.mem_range.1 hi
      have hexp : k + 1 - 1 - i = 1 + (k - 1 - i) := by omega
      rw [hexp, pow_add, pow_one, Nat.div_div_eq_div_mul]
    have hlast : k + 1 - 1 - k = 0 := by omega
    rw [List.range_succ, List.map_append, List.foldl_append, hshift, ih]
    simp only [List.map_cons, List.map_nil, List.foldl_cons, List.foldl_nil, hlast, pow_zero,
      Nat.div_one]
    rw [pow_succ', Nat.mod_mul]
    ring

theorem mapM_hexValue {ds : List Nat} (h : ∀ d ∈ ds, d < 16) :
    (ds.map hexChar).mapM hexValue = some ds := by
  have hvalue : ∀ n < 16, hexValue (hexChar n) = some n := by decide
  induction ds with
  | nil => rfl
  | cons d ds ih =>
    rw [List.map_cons, List.mapM_cons, hvalue d (h d List.mem_cons_self),
      ih fun d' hd' => h d' (List.mem_cons_of_mem d hd')]
    rfl

theorem length_digits (u : Uuid) : u.digits.length = 32 := by simp [digits]

theorem parseSimple_digits (u : Uuid) : parseSimple (u.digits.map hexChar) = some u := by
  have hlt : ∀ d ∈ u.digits, d < 16 := by
    intro d hd
    obtain ⟨i, -, rfl⟩ := List.mem_map.1 hd
    exact Nat.mod_lt _ (by decide)
  have hfold : u.digits.foldl (fun n d => n * 16 + d) 0 = u.toNat := by
    rw [digits, foldl_digits 32]
    exact Nat.mod_eq_of_lt u.isLt
  rw [parseSimple, mapM_hexValue hlt]
  simp [length_digits, hfold]

theorem length_hyphenate (h : ds.length = 32) : (hyphenate ds).length = 36 := by
  simp [hyphenate, h]

/-- The five groups of 32 digits. -/
theorem exists_groups (h : ds.length = 32) :
    ∃ a b c d e : List Char, ds = a ++ (b ++ (c ++ (d ++ e))) ∧ a.length = 8 ∧ b.length = 4 ∧
      c.length = 4 ∧ d.length = 4 := by
  have hsplit : ∀ n, (ds.drop n).take 4 ++ ds.drop (n + 4) = ds.drop n := by
    intro n
    rw [← List.drop_drop, List.take_append_drop]
  refine ⟨ds.take 8, (ds.drop 8).take 4, (ds.drop 12).take 4, (ds.drop 16).take 4, ds.drop 20,
    ?_, ?_, ?_, ?_, ?_⟩
  · rw [hsplit 16, hsplit 12, hsplit 8, List.take_append_drop]
  all_goals simp [h]

theorem parseHyphenated_hyphenate (h : ds.length = 32) :
    parseHyphenated (hyphenate ds) = parseSimple ds := by
  obtain ⟨a, b, c, d, e, rfl, ha, hb, hc, hd⟩ := exists_groups h
  have da : ∀ n, 8 ≤ n → a.drop n = [] := fun n hn => List.drop_eq_nil_of_le (by omega)
  have db : ∀ n, 4 ≤ n → b.drop n = [] := fun n hn => List.drop_eq_nil_of_le (by omega)
  have dc : ∀ n, 4 ≤ n → c.drop n = [] := fun n hn => List.drop_eq_nil_of_le (by omega)
  have dd : ∀ n, 4 ≤ n → d.drop n = [] := fun n hn => List.drop_eq_nil_of_le (by omega)
  have hjoin : hyphenate (a ++ (b ++ (c ++ (d ++ e)))) =
      a ++ '-' :: (b ++ '-' :: (c ++ '-' :: (d ++ '-' :: e))) := by
    simp [hyphenate, List.drop_append, ha, hb, hc, hd, da, db, dc]
  have hgroups : ∀ s, s = a ++ '-' :: (b ++ '-' :: (c ++ '-' :: (d ++ '-' :: e))) →
      s.take 8 ++ (s.drop 9).take 4 ++ (s.drop 14).take 4 ++ (s.drop 19).take 4 ++ s.drop 24 =
        a ++ (b ++ (c ++ (d ++ e))) := by
    rintro s rfl
    simp [List.drop_append, ha, hb, hc, hd, da, db, dc, dd]
  unfold parseHyphenated
  dsimp only
  rw [hgroups _ hjoin, if_pos rfl]

theorem length_text (u : Uuid) : u.text.length = 36 :=
  length_hyphenate (by rw [List.length_map, length_digits])

/-- A UUID is read back from its own text. -/
theorem parseStr_text (u : Uuid) : parseStr u.text = some u := by
  have hdigits : (u.digits.map hexChar).length = 32 := by rw [List.length_map, length_digits]
  rw [parseStr, length_text, if_neg (by decide), if_pos rfl, text,
    parseHyphenated_hyphenate hdigits, parseSimple_digits]

theorem text_injective : Function.Injective text := by
  intro u v h
  have := congrArg parseStr h
  rwa [parseStr_text, parseStr_text, Option.some.injEq] at this

end Uuid

end Opinions.Model
