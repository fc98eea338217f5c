import Lobu.Foundation.IpText
import Lobu.Foundation.Json
import Mathlib.Algebra.Order.Field.Power
import Mathlib.Data.Int.Log
import Mathlib.Data.Rat.Floor

namespace Lobu.Foundation

/-! # Doubles

The sum of two numbers is the exact sum rounded to the nearest double, ties to even.
Where a number is optional, none is `NaN`.
-/

namespace JsNumber

def roundHalfEven (value : Rat) : Int :=
  let rest := value - ⌊value⌋
  if rest < 1 / 2 ∨ rest = 1 / 2 ∧ ⌊value⌋ % 2 = 0 then ⌊value⌋ else ⌊value⌋ + 1

/-- The distance between the doubles around a value. -/
def spacing (value : Rat) : Rat :=
  2 ^ max (Int.log 2 |value| - 52) (-1074)

def double (value : Rat) : JsNumber :=
  let rounded := roundHalfEven (value / spacing value) * spacing value
  if |rounded| < 2 ^ 1024 then .finite rounded else .infinite (decide (value < 0))

def plus : Option JsNumber → Option JsNumber → Option JsNumber
  | some (.finite first), some (.finite second) => some (double (first + second))
  | some (.finite _), some (.infinite negative) => some (.infinite negative)
  | some (.infinite negative), some (.finite _) => some (.infinite negative)
  | some (.infinite first), some (.infinite second) =>
    if first = second then some (.infinite first) else none
  | some _, none => none
  | none, _ => none

def negate : JsNumber → JsNumber
  | .finite value => .finite (-value)
  | .infinite negative => .infinite (!negative)

def minus (first second : Option JsNumber) : Option JsNumber :=
  plus first (second.map negate)

/-- `first > second`, false for `NaN`. -/
def exceeds : Option JsNumber → Option JsNumber → Bool
  | some (.finite first), some (.finite second) => decide (second < first)
  | some (.finite _), some (.infinite negative) => negative
  | some (.infinite negative), some (.finite _) => !negative
  | some (.infinite first), some (.infinite second) => !first && second
  | some _, none => false
  | none, _ => false

/-- A whole number, as a value that may be `NaN`. -/
def whole (value : Int) : Option JsNumber :=
  some (.finite value)

theorem roundHalfEven_int (value : Int) : roundHalfEven value = value := by
  simp [roundHalfEven]

theorem spacing_of_small {value : Int} (small : |value| < 2 ^ 53) :
    ∃ places : Nat, spacing value = (2 ^ places)⁻¹ := by
  have below : Int.log 2 |(value : Rat)| < 53 := by
    by_cases zero : value = 0
    · simp [zero]
    · apply (Int.lt_zpow_iff_log_lt (by decide) (by simpa using zero)).mp
      exact_mod_cast small
  refine ⟨(-max (Int.log 2 |(value : Rat)| - 52) (-1074)).toNat, ?_⟩
  rw [spacing, ← zpow_natCast, ← zpow_neg, Int.toNat_of_nonneg (by omega), neg_neg]

/-- A whole number below `2 ^ 53` is a double. -/
theorem double_int {value : Int} (small : |value| < 2 ^ 53) : double value = .finite value := by
  obtain ⟨places, spaced⟩ := spacing_of_small small
  have positive : (0 : Rat) < 2 ^ places := by positivity
  have scaled : (value : Rat) / spacing value = ((value * 2 ^ places : Int) : Rat) := by
    rw [spaced, div_inv_eq_mul]
    push_cast
    rfl
  have rounded : (roundHalfEven ((value : Rat) / spacing value) : Rat) * spacing value = value := by
    rw [scaled, roundHalfEven_int, spaced]
    push_cast
    rw [mul_assoc, mul_inv_cancel₀ positive.ne', mul_one]
  have finite : |(value : Rat)| < 2 ^ 1024 := by
    have below : |(value : Rat)| < 2 ^ 53 := by exact_mod_cast small
    exact below.trans (pow_lt_pow_right₀ (by norm_num) (by norm_num))
  simp only [double, rounded, if_pos finite]

theorem le_roundHalfEven {bound : Int} {value : Rat} (below : (bound : Rat) ≤ value) :
    bound ≤ roundHalfEven value := by
  have floor : bound ≤ ⌊value⌋ := Int.le_floor.mpr below
  unfold roundHalfEven
  dsimp only
  split
  · exact floor
  · omega

theorem roundHalfEven_le {bound : Int} {value : Rat} (above : value ≤ bound) : roundHalfEven value ≤ bound := by
  have floor : ⌊value⌋ ≤ bound := by exact_mod_cast (Int.floor_le value).trans above
  unfold roundHalfEven
  dsimp only
  split
  · exact floor
  · rename_i rest
    push Not at rest
    have strict : (⌊value⌋ : Rat) < bound := by linarith [rest.1]
    have apart : ⌊value⌋ < bound := by exact_mod_cast strict
    omega

/-- Rounding brings no large whole number below `2 ^ 53`. -/
theorem large_rounded {value : Int} (large : 2 ^ 53 ≤ |value|) :
    2 ^ 53 ≤ |(roundHalfEven ((value : Rat) / spacing value) : Rat) * spacing value| := by
  have above : (2 : Rat) ^ 53 ≤ |(value : Rat)| := by exact_mod_cast large
  have nonzero : |(value : Rat)| ≠ 0 := (lt_of_lt_of_le (by norm_num) above).ne'
  have exponent : (53 : Int) ≤ Int.log 2 |(value : Rat)| := by
    apply (Int.zpow_le_iff_le_log (by decide) (lt_of_lt_of_le (by norm_num) above)).mp
    exact_mod_cast above
  have spaced : spacing value = 2 ^ (Int.log 2 |(value : Rat)| - 52) := by
    rw [spacing, max_eq_left (by omega)]
  have positive : 0 < spacing value := by
    rw [spaced]
    positivity
  have wide : (2 : Rat) ≤ spacing value := by
    rw [spaced]
    calc (2 : Rat) = 2 ^ (1 : Int) := by norm_num
      _ ≤ 2 ^ (Int.log 2 |(value : Rat)| - 52) := zpow_le_zpow_right₀ (by norm_num) (by omega)
  have reach : (2 : Rat) ^ 52 * spacing value ≤ |(value : Rat)| := by
    rw [spaced]
    calc (2 : Rat) ^ 52 * 2 ^ (Int.log 2 |(value : Rat)| - 52)
        = 2 ^ Int.log 2 |(value : Rat)| := by
          rw [← zpow_natCast, ← zpow_add₀ (by norm_num)]
          congr 1
          push_cast
          ring
      _ ≤ |(value : Rat)| := Int.zpow_log_le_self (by decide) (lt_of_lt_of_le (by norm_num) above)
  have rounded : (2 : Rat) ^ 52 ≤ |(roundHalfEven ((value : Rat) / spacing value) : Rat)| := by
    rcases le_total 0 (value : Rat) with sign | sign
    · rw [abs_of_nonneg sign] at reach
      have scaled : ((2 ^ 52 : Int) : Rat) ≤ value / spacing value := by
        rw [le_div_iff₀ positive]
        exact_mod_cast reach
      have whole : ((2 ^ 52 : Int) : Rat) ≤ roundHalfEven (value / spacing value) := by
        exact_mod_cast le_roundHalfEven scaled
      exact le_trans (by exact_mod_cast whole) (le_abs_self _)
    · rw [abs_of_nonpos sign] at reach
      have scaled : (value : Rat) / spacing value ≤ ((-2 ^ 52 : Int) : Rat) := by
        rw [div_le_iff₀ positive]
        push_cast
        linarith
      have whole : (roundHalfEven ((value : Rat) / spacing value) : Rat) ≤ ((-2 ^ 52 : Int) : Rat) := by
        exact_mod_cast roundHalfEven_le scaled
      push_cast at whole
      exact le_trans (by linarith) (neg_le_abs _)
  rw [abs_mul, abs_of_pos positive]
  calc (2 : Rat) ^ 53 = 2 ^ 52 * 2 := by norm_num
    _ ≤ |(roundHalfEven ((value : Rat) / spacing value) : Rat)| * spacing value :=
      mul_le_mul rounded wide (by norm_num) (abs_nonneg _)

theorem eq_of_double {value other : Int} (small : |other| < 2 ^ 53)
    (same : double value = .finite other) : value = other := by
  by_cases bounded : |value| < 2 ^ 53
  · rw [double_int bounded, finite.injEq] at same
    exact_mod_cast same
  · have large := large_rounded (not_lt.mp bounded)
    simp only [double] at same
    split at same
    · rw [finite.injEq] at same
      rw [same] at large
      have wide : (2 : Int) ^ 53 ≤ |other| := by exact_mod_cast large
      exact absurd small (not_lt.mpr wide)
    · cases same

theorem plus_whole {first second : Int} (small : |first + second| < 2 ^ 53) :
    plus (whole first) (whole second) = whole (first + second) := by
  have sum := double_int small
  rw [Int.cast_add] at sum
  simp only [plus, whole, sum, Int.cast_add]

theorem whole_eq (value : Int) : some (finite value) = whole value := rfl

theorem negate_whole (value : Int) : (whole value).map negate = whole (-value) := by
  simp [whole, negate]

theorem minus_whole {first second : Int} (small : |first - second| < 2 ^ 53) :
    minus (whole first) (whole second) = whole (first - second) := by
  rw [minus, negate_whole, plus_whole small, sub_eq_add_neg]

theorem exceeds_whole (first second : Int) : exceeds (whole first) (whole second) = decide (second < first) := by
  simp [exceeds, whole]

end JsNumber

/-- `parseInt(text, 10)` before it is rounded, none for `NaN`. -/
def parseInt (text : List Char) : Option Int :=
  let trimmed := trimStart text
  let signed := trimmed.head? = some '-' ∨ trimmed.head? = some '+'
  let unsigned := if signed then trimmed.drop 1 else trimmed
  let digits := unsigned.takeWhile Char.isDigit
  if digits = [] then none
  else if trimmed.head? = some '-' then some (-decimalValue digits)
  else some (decimalValue digits)

end Lobu.Foundation
