import Mathlib.Algebra.Order.Field.Basic
import Mathlib.Data.Rat.Cast.Defs
import Mathlib.Tactic.FieldSimp
import Mathlib.Tactic.NormNum
import Mathlib.Tactic.Ring
import RowBase.Binary64.Decimal

namespace RowBase.Binary64

theorem roundHalfEven_mul (n d : Nat) {k : Nat} (pos : 0 < k) :
    roundHalfEven (n * k) (d * k) = roundHalfEven n d := by
  have quotient : n * k / (d * k) = n / d := Nat.mul_div_mul_right n d pos
  have remainder : n * k % (d * k) = n % d * k := Nat.mul_mod_mul_right k n d
  have below : 2 * (n % d * k) < d * k ↔ 2 * (n % d) < d := by
    rw [← Nat.mul_assoc]
    exact Nat.mul_lt_mul_right pos
  have half : 2 * (n % d * k) = d * k ↔ 2 * (n % d) = d := by
    rw [← Nat.mul_assoc]
    exact Nat.mul_left_inj (Nat.ne_of_gt pos)
  simp only [roundHalfEven, quotient, remainder, below, half]

theorem roundHalfEven_exact (q : Nat) {d : Nat} (pos : 0 < d) : roundHalfEven (q * d) d = q := by
  simp [roundHalfEven, Nat.mul_div_cancel _ pos, pos]

def unitsOfOne : Nat :=
  Nat.pow 2 1074

theorem unitsOfOne_pos : 0 < unitsOfOne := by
  decide +kernel

/-- How many binary digits the quotient has beyond those of a significand, counted in units. -/
def scaleOf (n d : Nat) : Nat :=
  (n * unitsOfOne / d).log2 - 52

theorem nearestCode_eq (n d : Nat) : nearestCode n d =
    min (scaleOf n d * binade + roundHalfEven (n * unitsOfOne) (d * 2 ^ scaleOf n d)) infinityCode := by
  rw [← Nat.pow_eq]
  unfold nearestCode scaleOf unitsOfOne
  with_reducible rfl

theorem nearestCode_mul (n d : Nat) {k : Nat} (pos : 0 < k) : nearestCode (n * k) (d * k) = nearestCode n d := by
  have quotient : n * k * unitsOfOne / (d * k) = n * unitsOfOne / d := by
    rw [Nat.mul_right_comm, Nat.mul_div_mul_right _ _ pos]
  have scale : scaleOf (n * k) (d * k) = scaleOf n d := by rw [scaleOf, scaleOf, quotient]
  rw [nearestCode_eq, nearestCode_eq, scale, Nat.mul_right_comm n, Nat.mul_right_comm d, roundHalfEven_mul _ _ pos]

theorem nearestCode_congr {n d n' d' : Nat} (pos : 0 < d) (pos' : 0 < d') (same : n * d' = n' * d) :
    nearestCode n d = nearestCode n' d' := by
  rw [← nearestCode_mul n d pos', same, Nat.mul_comm d, nearestCode_mul n' d' pos]

theorem exists_significand (c : Nat) : ∃ scale significand, units c = significand * 2 ^ scale ∧
    c = scale * binade + significand ∧ significand < 2 ^ 53 ∧ (scale = 0 ∨ 2 ^ 52 ≤ significand) := by
  have whole := Nat.div_add_mod c binade
  have part : c % binade < binade := Nat.mod_lt _ (by decide)
  have unit : binade = 2 ^ 52 := rfl
  refine ⟨c / binade - 1, c - (c / binade - 1) * binade, rfl, ?_⟩
  generalize c / binade = e at whole ⊢
  -- The lowest two exponents share one scale; only in the lowest does the significand lack its leading bit.
  cases e with
  | zero => omega
  | succ e =>
    rw [Nat.add_sub_cancel]
    have more : binade * (e + 1) = e * binade + binade := by ring
    omega

theorem units_pos {c : Nat} (pos : 0 < c) : 0 < units c := by
  obtain ⟨scale, significand, units_eq, code_eq, -, small⟩ := exists_significand c
  have filled : 0 < significand := by
    rcases small with rfl | large
    · omega
    · exact Nat.lt_of_lt_of_le (by decide) large
  rw [units_eq]
  exact Nat.mul_pos filled (by positivity)

/-- A finite magnitude is the nearest one to itself. -/
theorem nearestCode_units {c : Nat} (pos : 0 < c) (finite : c ≤ infinityCode) :
    nearestCode (units c) unitsOfOne = c := by
  obtain ⟨scale, significand, units_eq, code_eq, small, large⟩ := exists_significand c
  have filled := units_pos pos
  have quotient : units c * unitsOfOne / unitsOfOne = units c := Nat.mul_div_cancel _ unitsOfOne_pos
  have scaled : scaleOf (units c) unitsOfOne = scale := by
    rw [scaleOf, quotient]
    rcases large with rfl | large
    · have : (units c).log2 < 53 := (Nat.log2_lt (by omega)).mpr (by omega)
      omega
    · have next : 2 ^ (52 + scale + 1) = 2 ^ 53 * 2 ^ scale := by ring
      have length : (units c).log2 = 52 + scale := by
        rw [Nat.log2_eq_iff (by omega), units_eq, next, Nat.pow_add]
        exact ⟨Nat.mul_le_mul_right _ large, Nat.mul_lt_mul_of_pos_right small (Nat.two_pow_pos scale)⟩
      omega
  have exact : units c * unitsOfOne = significand * (unitsOfOne * 2 ^ scale) := by
    rw [units_eq]
    ring
  have divisor : 0 < unitsOfOne * 2 ^ scale := Nat.mul_pos unitsOfOne_pos (Nat.two_pow_pos scale)
  rw [nearestCode_eq, scaled, exact, roundHalfEven_exact _ divisor, ← code_eq]
  exact Nat.min_eq_left finite

theorem nearestCode_of_tiny {n d : Nat} (tiny : 2 * (n * unitsOfOne) < d) : nearestCode n d = 0 := by
  have quotient : n * unitsOfOne / d = 0 := Nat.div_eq_of_lt (by omega)
  have remainder : n * unitsOfOne % d = n * unitsOfOne := Nat.mod_eq_of_lt (by omega)
  have scale : scaleOf n d = 0 := by
    rw [scaleOf, quotient]
    rfl
  rw [nearestCode_eq, scale]
  simp [roundHalfEven, remainder, quotient, tiny]

theorem nearestCode_zero {d : Nat} (pos : 0 < d) : nearestCode 0 d = 0 :=
  nearestCode_of_tiny (by omega)

theorem le_scaleOf {n d scale : Nat} (pos : 0 < d) (huge : 2 ^ (scale + 52) * d ≤ n * unitsOfOne) :
    scale ≤ scaleOf n d := by
  have quotient : 2 ^ (scale + 52) ≤ n * unitsOfOne / d := (Nat.le_div_iff_mul_le pos).mpr huge
  have filled : n * unitsOfOne / d ≠ 0 := Nat.ne_of_gt (Nat.lt_of_lt_of_le (Nat.two_pow_pos _) quotient)
  have length := (Nat.le_log2 filled).mpr quotient
  rw [scaleOf]
  omega

theorem nearestCode_of_scale {n d : Nat} (beyond : 2046 ≤ scaleOf n d) : nearestCode n d = infinityCode := by
  have length : (n * unitsOfOne / d).log2 = scaleOf n d + 52 := by
    rw [scaleOf] at beyond ⊢
    omega
  have filled : n * unitsOfOne / d ≠ 0 := by
    intro none
    rw [none, Nat.log2_zero] at length
    omega
  have least := Nat.log2_self_le filled
  rw [length, Nat.pow_add, Nat.mul_comm] at least
  have significand : 2 ^ 52 ≤ n * unitsOfOne / (d * 2 ^ scaleOf n d) := by
    rw [← Nat.div_div_eq_div_mul]
    exact (Nat.le_div_iff_mul_le (Nat.two_pow_pos _)).mpr least
  have rounded : 2 ^ 52 ≤ roundHalfEven (n * unitsOfOne) (d * 2 ^ scaleOf n d) := by
    unfold roundHalfEven
    split
    · exact significand
    · omega
  have more : 2046 * binade ≤ scaleOf n d * binade := Nat.mul_le_mul_right _ beyond
  have whole : infinityCode = 2046 * binade + 2 ^ 52 := rfl
  rw [nearestCode_eq]
  exact Nat.min_eq_right (by omega)

namespace Decimal

def value (d : Decimal) : ℚ :=
  d.digits * 10 ^ d.exponent

theorem nearest_ofNat (digits e : Nat) : nearest ⟨digits, .ofNat e⟩ = nearestCode (digits * 10 ^ e) 1 := by
  by_cases none : digits = 0
  · rw [nearest, if_pos none, none, Nat.zero_mul, nearestCode_zero Nat.one_pos]
  · rw [nearest, if_neg none]
    by_cases far : 309 < e
    · have limit : 2 ^ (2046 + 52) ≤ 10 ^ 310 * unitsOfOne := by decide +kernel
      have more : 10 ^ 310 ≤ digits * 10 ^ e :=
        Nat.le_trans (pow_le_pow_right₀ (by omega) far) (Nat.le_mul_of_pos_left _ (Nat.pos_of_ne_zero none))
      have huge := Nat.le_trans limit (Nat.mul_le_mul_right unitsOfOne more)
      rw [← Nat.mul_one (2 ^ _)] at huge
      exact (if_pos far).trans (nearestCode_of_scale (le_scaleOf Nat.one_pos huge)).symm
    · exact if_neg far

theorem nearest_negSucc (digits e : Nat) : nearest ⟨digits, .negSucc e⟩ = nearestCode digits (10 ^ (e + 1)) := by
  by_cases none : digits = 0
  · rw [nearest, if_pos none, none, nearestCode_zero (Nat.pow_pos (by omega))]
  · rw [nearest, if_neg none]
    by_cases far : 330 + digits.log2 < e + 1
    · have limit : 4 * unitsOfOne < 10 ^ 331 := by decide +kernel
      have length := @Nat.lt_log2_self digits
      have tiny : 2 * (digits * unitsOfOne) < 10 ^ (e + 1) :=
        calc 2 * (digits * unitsOfOne)
            ≤ 2 * (2 ^ (digits.log2 + 1) * unitsOfOne) := by gcongr
          _ = 4 * unitsOfOne * 2 ^ digits.log2 := by ring
          _ < 10 ^ 331 * 2 ^ digits.log2 := Nat.mul_lt_mul_of_pos_right limit (Nat.two_pow_pos _)
          _ ≤ 10 ^ 331 * 10 ^ digits.log2 := Nat.mul_le_mul_left _ (Nat.pow_le_pow_left (by omega) _)
          _ = 10 ^ (331 + digits.log2) := (pow_add ..).symm
          _ ≤ 10 ^ (e + 1) := Nat.pow_le_pow_right (by omega) (by omega)
      exact (if_pos far).trans (nearestCode_of_tiny tiny).symm
    · exact if_neg far

/-- What is nearest to a decimal hangs on its value only, however its digits are split from its exponent. -/
theorem nearest_of_value {d : Decimal} {n k : Nat} (pos : 0 < k) (same : d.value = n / k) :
    d.nearest = nearestCode n k := by
  have divisor : (k : ℚ) ≠ 0 := by exact_mod_cast Nat.ne_of_gt pos
  rcases d with ⟨digits, e | e⟩
  · have product : digits * 10 ^ e * k = n * 1 := by
      rw [eq_div_iff divisor] at same
      have same : (digits : ℚ) * 10 ^ e * k = n := same
      rw [Nat.mul_one]
      exact_mod_cast same
    exact (nearest_ofNat digits e).trans (nearestCode_congr Nat.one_pos pos product)
  · have product : digits * k = n * 10 ^ (e + 1) := by
      have power : (10 : ℚ) ^ (e + 1) ≠ 0 := by positivity
      have same : (digits : ℚ) * ((10 : ℚ) ^ (e + 1))⁻¹ = n / k := same
      rw [← div_eq_mul_inv, div_eq_div_iff power divisor] at same
      exact_mod_cast same
    exact (nearest_negSucc digits e).trans (nearestCode_congr (Nat.pow_pos (by omega)) pos product)

theorem nearest_congr {d d' : Decimal} (same : d.value = d'.value) : d.nearest = d'.nearest := by
  rcases d' with ⟨digits, e | e⟩
  · rw [nearest_ofNat]
    exact nearest_of_value Nat.one_pos (by rw [same]; simp [value])
  · rw [nearest_negSucc]
    exact nearest_of_value (Nat.pow_pos (by omega)) (by rw [same]; simp [value, div_eq_mul_inv])

end Decimal

end RowBase.Binary64
