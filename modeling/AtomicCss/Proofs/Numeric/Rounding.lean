import AtomicCss.Numeric.Decimal
import Mathlib.Algebra.Order.Field.Power
import Mathlib.Data.Rat.Cast.Order
import Mathlib.Tactic.FieldSimp
import Mathlib.Tactic.Linarith
import Mathlib.Tactic.Positivity
import Mathlib.Tactic.Ring

/-!
# Rounding, seen from the outside

A number is rounded to the nearest machine number before it is compared with a bound. This module says what the
comparison comes to for the exact number, which is a rational: there is a little room above the bound, half of what the
machine numbers are apart there, and below the least machine number a little room around zero.

All that is used of rounding is when the integer nearest to a quotient is at most another one (`roundEven_le_iff`), and
in which power of two the quotient lies (`floorLog2_spec`).

## The architecture

* **`Binary64.value`**, **`Decimal.value`** — the rational numbers that machine numbers and decimals stand for.
* **`Rounds`**, **`rounds_nearest`** — a number, the power of two it lies in, and the nearest multiple of its unit.
* **`Rounds.value_le_iff`**, **`Rounds.eq_zero_iff`** — when the multiple is at most a bound, and when it is zero.
* **`Decimal.atMost_nearest_iff`**, **`Decimal.mantissa_nearest_iff`** — the same for decimals.
-/

namespace AtomicCss

/-! ## Powers -/

theorem cast_twoPow (n : Nat) : (twoPow n : ℚ) = 2 ^ n := by
  rw [twoPow, Nat.pow_eq, Nat.cast_pow, Nat.cast_ofNat]

theorem cast_tenPow (n : Nat) : (tenPow n : ℚ) = 10 ^ n := by
  rw [tenPow, Nat.pow_eq, Nat.cast_pow, Nat.cast_ofNat]

/-- A power with an integer exponent is a quotient of powers, one of which is one. -/
theorem zpow_eq_div {b : ℚ} (e : ℤ) : b ^ e = b ^ e.toNat / b ^ (-e).toNat := by
  rcases Int.le_total 0 e with he | he
  · obtain ⟨n, rfl⟩ := Int.eq_ofNat_of_zero_le he
    simp
  · obtain ⟨n, hn⟩ := Int.eq_ofNat_of_zero_le (show 0 ≤ -e by omega)
    obtain rfl : e = -n := by omega
    simp

/-! ## The nearest integer -/

/-- The nearest integer is at most another one below the middle behind that one, and in the middle if it is even. -/
theorem roundEven_le_iff {num den : Nat} (hden : 0 < den) (n : Nat) :
    roundEven num den ≤ n ↔ 2 * num < (2 * n + 1) * den ∨ (2 * num = (2 * n + 1) * den ∧ n % 2 = 0) := by
  have hnum := Nat.div_add_mod num den
  have hrest := Nat.mod_lt num hden
  have hfactor : (2 * n + 1) * den = 2 * (den * n) + den := by ring
  unfold roundEven
  dsimp only
  generalize num / den = quotient at hnum ⊢
  generalize num % den = rest at hnum hrest ⊢
  rw [hfactor]
  rcases Nat.lt_trichotomy quotient n with hlt | rfl | hlt
  · have hproduct := Nat.mul_le_mul_left den (show quotient + 1 ≤ n from hlt)
    rw [Nat.mul_succ] at hproduct
    split <;> omega
  · split <;> omega
  · have hproduct := Nat.mul_le_mul_left den (show n + 1 ≤ quotient from hlt)
    rw [Nat.mul_succ] at hproduct
    split <;> omega

/-! ## The power of two below a number -/

theorem floorLog2_spec {num den : Nat} (hnum : 0 < num) (hden : 0 < den) :
    (2 : ℚ) ^ floorLog2 num den ≤ num / den ∧ (num / den : ℚ) < 2 ^ (floorLog2 num den + 1) := by
  have hden' : (0 : ℚ) < den := by exact_mod_cast hden
  have hlow : ((2 : ℚ) ^ num.log2) ≤ num := by exact_mod_cast Nat.log2_self_le hnum.ne'
  have hhigh : (num : ℚ) < 2 ^ (num.log2 + 1) := by exact_mod_cast Nat.lt_log2_self
  have hlow' : ((2 : ℚ) ^ den.log2) ≤ den := by exact_mod_cast Nat.log2_self_le hden.ne'
  have hhigh' : (den : ℚ) < 2 ^ (den.log2 + 1) := by exact_mod_cast Nat.lt_log2_self
  unfold floorLog2
  dsimp only
  generalize hk : (num.log2 : Int) - den.log2 = k
  have htest : den * twoPow k.toNat ≤ num * twoPow (-k).toNat ↔ (2 : ℚ) ^ k ≤ num / den := by
    rw [zpow_eq_div, div_le_div_iff₀ (by positivity) hden', ← cast_twoPow, ← cast_twoPow, mul_comm (den : Nat)]
    norm_cast
  have hupper : (num / den : ℚ) < 2 ^ (k + 1) := by
    rw [div_lt_iff₀ hden']
    calc (num : ℚ) < 2 ^ (num.log2 + 1) := hhigh
      _ = 2 ^ (k + 1) * 2 ^ den.log2 := by
        rw [← zpow_natCast, ← zpow_natCast, ← zpow_add₀ two_ne_zero]
        congr 1
        omega
      _ ≤ 2 ^ (k + 1) * den := mul_le_mul_of_nonneg_left hlow' (by positivity)
  have hlower : (2 : ℚ) ^ (k - 1) ≤ num / den := by
    rw [le_div_iff₀ hden']
    calc (2 : ℚ) ^ (k - 1) * den ≤ 2 ^ (k - 1) * 2 ^ (den.log2 + 1) :=
          mul_le_mul_of_nonneg_left hhigh'.le (by positivity)
      _ = 2 ^ num.log2 := by
        rw [← zpow_natCast, ← zpow_natCast, ← zpow_add₀ two_ne_zero]
        congr 1
        omega
      _ ≤ num := hlow
  split
  · rename_i h
    exact ⟨htest.1 h, hupper⟩
  · rename_i h
    rw [htest, not_le] at h
    rw [sub_add_cancel]
    exact ⟨hlower, h⟩

/-! ## Machine numbers -/

namespace Binary64

/-- The rational number that a machine number stands for. -/
def value (x : Binary64) : ℚ :=
  x.mantissa * 2 ^ x.exponent

theorem value_eq_div (x : Binary64) : x.value = x.numerator / x.denominator := by
  rw [value, numerator, denominator, zpow_eq_div, Nat.cast_mul, cast_twoPow, cast_twoPow, mul_div_assoc]

theorem denominator_cast_pos (x : Binary64) : (0 : ℚ) < x.denominator := by
  exact_mod_cast x.denominator_pos

theorem atMost_iff {x : Binary64} {n : Nat} : x.atMost n = true ↔ x.value ≤ n := by
  rw [atMost, decide_eq_true_eq, value_eq_div, div_le_iff₀ x.denominator_cast_pos]
  norm_cast

theorem value_eq_zero_iff {x : Binary64} : x.value = 0 ↔ x.mantissa = 0 := by
  have htwo : (2 : ℚ) ^ x.exponent ≠ 0 := zpow_ne_zero _ two_ne_zero
  rw [value, mul_eq_zero, or_iff_left htwo, Nat.cast_eq_zero]

end Binary64

/-! ## The nearest multiple -/

/-- A number in a power of two, the unit of the machine numbers there, and the multiple of the unit that the number is
rounded to: the nearest one, and the even one of two. -/
structure Rounds (number : ℚ) (power unit : ℤ) (multiple : Nat) : Prop where
  lower : 2 ^ power ≤ number
  upper : number < 2 ^ (power + 1)
  unit_eq : unit = max (power - 52) (-1074)
  le_iff_middle : ∀ n : Nat, multiple ≤ n ↔
    number < (n + 1 / 2) * 2 ^ unit ∨ (number = (n + 1 / 2) * 2 ^ unit ∧ n % 2 = 0)

namespace Rounds

variable {number : ℚ} {power unit : ℤ} {multiple : Nat}

/-- Below an even multiple the middle counts. -/
theorem le_iff_of_even (h : Rounds number power unit multiple) {n : Nat} (heven : n % 2 = 0) :
    multiple ≤ n ↔ number ≤ (n + 1 / 2) * 2 ^ unit := by
  rw [h.le_iff_middle, le_iff_lt_or_eq]
  simp [heven]

/-- Above the least unit the multiple has all its binary digits. -/
theorem le_multiple (h : Rounds number power unit multiple) (hunit : unit = power - 52) : 2 ^ 52 ≤ multiple := by
  by_contra hlt
  have hle : multiple ≤ 2 ^ 52 - 1 := by omega
  have hlower := h.lower
  have hpower : (2 : ℚ) ^ power = 2 ^ 52 * 2 ^ unit := by
    rw [← zpow_natCast, ← zpow_add₀ two_ne_zero]
    congr 1
    omega
  have hpositive : (0 : ℚ) < 2 ^ unit := by positivity
  rw [h.le_iff_middle] at hle
  rw [hpower] at hlower
  rcases hle with hlt | ⟨heq, -⟩
  · push_cast at hlt
    nlinarith
  · push_cast at heq
    nlinarith

/-- Every whole number is an even multiple of a unit that is a proper fraction. -/
theorem exists_even_multiple {unit : ℤ} (h : unit < 0) (bound : Nat) :
    ∃ n : Nat, n % 2 = 0 ∧ (n : ℚ) * 2 ^ unit = bound := by
  obtain ⟨j, hj⟩ := Int.eq_ofNat_of_zero_le (show 0 ≤ -unit - 1 by omega)
  refine ⟨bound * 2 ^ (j + 1), ?_, ?_⟩
  · rw [pow_succ, ← mul_assoc]
    exact Nat.mul_mod_left _ _
  · have hinverse : (2 : ℚ) ^ (j + 1) * 2 ^ unit = 1 := by
      rw [← zpow_natCast, ← zpow_add₀ two_ne_zero, show ((j + 1 : ℕ) : ℤ) + unit = 0 by omega, zpow_zero]
    rw [Nat.cast_mul, Nat.cast_pow, Nat.cast_ofNat, mul_assoc, hinverse, mul_one]

theorem half_unit (unit : ℤ) : (1 / 2 : ℚ) * 2 ^ unit = 2 ^ (unit - 1) := by
  rw [zpow_sub_one₀ two_ne_zero]
  ring

/-- **What is rounded to at most a bound**: everything up to half a unit above it. The unit is that of the bound, and a
number in a lower power of two is below the bound anyway. -/
theorem value_le_iff (h : Rounds number power unit multiple) {bound k : Nat} (hlower : 2 ^ k ≤ bound)
    (hupper : bound < 2 ^ (k + 1)) (hk : k < 52) :
    (multiple : ℚ) * 2 ^ unit ≤ bound ↔ number ≤ bound + 2 ^ ((k : ℤ) - 53) := by
  have hunit := h.unit_eq
  have hpositive : (0 : ℚ) < 2 ^ unit := by positivity
  have hslack : (0 : ℚ) < 2 ^ ((k : ℤ) - 53) := by positivity
  have hlower' : ((2 : ℚ) ^ k) ≤ bound := by exact_mod_cast hlower
  rcases lt_or_ge (k : ℤ) power with hpower | hpower
  · -- the number lies in a higher power of two, as does what it is rounded to
    have hmultiple : (2 : ℚ) ^ 52 ≤ multiple := by exact_mod_cast h.le_multiple (by omega)
    have hsplit : (2 : ℚ) ^ power = 2 ^ 52 * 2 ^ unit := by
      rw [← zpow_natCast, ← zpow_add₀ two_ne_zero]
      congr 1
      omega
    have hnext : (bound : ℚ) + 1 ≤ 2 ^ power := by
      calc (bound : ℚ) + 1 ≤ 2 ^ (k + 1) := by exact_mod_cast hupper
        _ = 2 ^ ((k : ℤ) + 1) := by norm_cast
        _ ≤ 2 ^ power := zpow_le_zpow_right₀ one_le_two hpower
    have hsmall : (2 : ℚ) ^ ((k : ℤ) - 53) < 1 := zpow_lt_one_of_neg₀ one_lt_two (by omega)
    refine iff_of_false ?_ ?_
    · rw [not_le]
      nlinarith [mul_le_mul_of_nonneg_right hmultiple hpositive.le]
    · rw [not_le]
      linarith [h.lower]
  · obtain ⟨n, heven, hn⟩ := exists_even_multiple (show unit < 0 by omega) bound
    have hmultiple : (multiple : ℚ) * 2 ^ unit ≤ bound ↔ number ≤ bound + 2 ^ (unit - 1) := by
      rw [← hn, mul_le_mul_iff_left₀ hpositive, Nat.cast_le, h.le_iff_of_even heven, add_mul, half_unit]
    rw [hmultiple]
    rcases hpower.lt_or_eq with hpower | rfl
    · have hnumber : number ≤ bound := by
        calc number ≤ 2 ^ (power + 1) := h.upper.le
          _ ≤ 2 ^ (k : ℤ) := zpow_le_zpow_right₀ one_le_two hpower
          _ ≤ bound := by rwa [zpow_natCast]
      have hhalf : (0 : ℚ) < 2 ^ (unit - 1) := by positivity
      exact iff_of_true (by linarith) (by linarith)
    · rw [show unit - 1 = (k : ℤ) - 53 by omega]

/-- **What is rounded to zero**: half of the least machine number, and what is below. -/
theorem eq_zero_iff (h : Rounds number power unit multiple) : multiple = 0 ↔ number ≤ 2 ^ (-1075 : ℤ) := by
  rcases le_or_gt unit (-1074) with hleast | hgreater
  · obtain rfl : unit = -1074 := by
      have := h.unit_eq
      omega
    rw [← Nat.le_zero, h.le_iff_of_even rfl, Nat.cast_zero, zero_add, half_unit]
    norm_num
  · have hunit : unit = power - 52 := by
      have := h.unit_eq
      omega
    have hmultiple := h.le_multiple hunit
    refine iff_of_false (by omega) ?_
    rw [not_le]
    calc (2 : ℚ) ^ (-1075 : ℤ) < 2 ^ power := zpow_lt_zpow_right₀ one_lt_two (by omega)
      _ ≤ number := h.lower

end Rounds

/-- **The nearest machine number is the nearest multiple of the unit**, unless it is too large. -/
theorem rounds_nearest {num den : Nat} (hnum : 0 < num) (hden : 0 < den) :
    ∃ power unit multiple, Rounds (num / den) power unit multiple ∧
      ((Binary64.nearest num den = none ∧ 970 < unit) ∨
        ∃ x, Binary64.nearest num den = some x ∧ x.value = multiple * 2 ^ unit) := by
  obtain ⟨hlower, hupper⟩ := floorLog2_spec hnum hden
  generalize hunit : max (floorLog2 num den - 52) (-1074) = unit
  generalize hmultiple : roundEven (num * twoPow (-unit).toNat) (den * twoPow unit.toNat) = multiple
  refine ⟨floorLog2 num den, unit, multiple, ⟨hlower, hupper, hunit.symm, fun n => ?_⟩, ?_⟩
  · have hden' : (0 : ℚ) < den := by exact_mod_cast hden
    have hdown : (0 : ℚ) < 2 ^ (-unit).toNat := by positivity
    have hmiddle : ((n : ℚ) + 1 / 2) * 2 ^ unit = ((2 * n + 1) * 2 ^ unit.toNat) / (2 * 2 ^ (-unit).toNat) := by
      rw [zpow_eq_div]
      field_simp
    rw [← hmultiple, roundEven_le_iff (Nat.mul_pos hden (twoPow_pos _)), hmiddle, div_lt_div_iff₀ hden' (by positivity),
      div_eq_div_iff hden'.ne' (by positivity), ← cast_twoPow, ← cast_twoPow]
    norm_cast
    rw [show 2 * (num * twoPow (-unit).toNat) = num * (2 * twoPow (-unit).toNat) by ring,
      show (2 * n + 1) * (den * twoPow unit.toNat) = (2 * n + 1) * twoPow unit.toNat * den by ring]
  · rw [Binary64.nearest, if_neg hnum.ne']
    dsimp only
    rw [hunit, hmultiple]
    -- a multiple with one digit more is written with the next unit
    obtain ⟨rounded, hrounded, hvalue, hexponent⟩ : ∃ rounded : Binary64,
        (if multiple = twoPow 53 then (⟨twoPow 52, unit + 1⟩ : Binary64) else ⟨multiple, unit⟩) = rounded ∧
          rounded.value = multiple * 2 ^ unit ∧ rounded.exponent ≤ unit + 1 := by
      refine ⟨_, rfl, ?_, ?_⟩
      · split
        · rename_i hcarry
          rw [hcarry, Binary64.value, cast_twoPow, cast_twoPow, zpow_add_one₀ two_ne_zero]
          ring
        · rfl
      · split <;> simp
    rw [hrounded]
    split
    · exact .inl ⟨rfl, by omega⟩
    · exact .inr ⟨rounded, rfl, hvalue⟩

namespace Binary64

/-- **A quotient is rounded to at most a bound**, a positive number of at most 52 binary digits, up to half a unit
above it. -/
theorem atMost_nearest_iff {num den bound k : Nat} (hden : 0 < den) (hlower : 2 ^ k ≤ bound)
    (hupper : bound < 2 ^ (k + 1)) (hk : k < 52) :
    (∃ x, nearest num den = some x ∧ x.atMost bound = true) ↔ (num / den : ℚ) ≤ bound + 2 ^ ((k : ℤ) - 53) := by
  rcases Nat.eq_zero_or_pos num with rfl | hnum
  · refine iff_of_true ⟨zero, if_pos rfl, ?_⟩ ?_
    · rw [atMost_iff, value, zero]
      simp
    · rw [Nat.cast_zero, zero_div]
      positivity
  · obtain ⟨power, unit, multiple, hrounds, hnearest⟩ := rounds_nearest hnum hden
    rw [← hrounds.value_le_iff hlower hupper hk]
    rcases hnearest with ⟨hnone, hunit⟩ | ⟨x, hx, hvalue⟩
    · refine iff_of_false (fun ⟨x, hx, _⟩ => ?_) ?_
      · rw [hnone] at hx
        cases hx
      · have hmultiple : (2 : ℚ) ^ 52 ≤ multiple := by
          have hunit' := hrounds.unit_eq
          exact_mod_cast hrounds.le_multiple (by omega)
        have hbound : (bound : ℚ) < 2 ^ 52 := by
          exact_mod_cast hupper.trans_le (Nat.pow_le_pow_right (by decide) hk)
        have hone : (1 : ℚ) ≤ 2 ^ unit := one_le_zpow₀ one_le_two (by omega)
        rw [not_le]
        nlinarith
    · rw [← hvalue, ← atMost_iff]
      refine ⟨fun ⟨y, hy, hatMost⟩ => ?_, fun hatMost => ⟨x, hx, hatMost⟩⟩
      obtain rfl := Option.some.inj (hx.symm.trans hy)
      exact hatMost

/-- **A quotient is rounded to zero** up to half of the least machine number. -/
theorem mantissa_nearest_iff {num den : Nat} {x : Binary64} (hden : 0 < den) (h : nearest num den = some x) :
    x.mantissa = 0 ↔ (num / den : ℚ) ≤ 2 ^ (-1075 : ℤ) := by
  rcases Nat.eq_zero_or_pos num with rfl | hnum
  · obtain rfl : zero = x := Option.some.inj ((if_pos rfl).symm.trans h)
    refine iff_of_true rfl ?_
    rw [Nat.cast_zero, zero_div]
    positivity
  · obtain ⟨power, unit, multiple, hrounds, ⟨hnone, -⟩ | ⟨y, hy, hvalue⟩⟩ := rounds_nearest hnum hden
    · rw [hnone] at h
      cases h
    · obtain rfl := Option.some.inj (hy.symm.trans h)
      have hunit : (2 : ℚ) ^ unit ≠ 0 := zpow_ne_zero _ two_ne_zero
      rw [← hrounds.eq_zero_iff, ← value_eq_zero_iff, hvalue, mul_eq_zero, or_iff_left hunit, Nat.cast_eq_zero]

end Binary64

/-! ## Decimals -/

namespace Decimal

/-- The rational number that a decimal stands for, without its sign. -/
def magnitude (d : Decimal) : ℚ :=
  d.digits * 10 ^ d.exponent

/-- The rational number that a decimal stands for. -/
def value (d : Decimal) : ℚ :=
  if d.negative then -d.magnitude else d.magnitude

theorem magnitude_nonneg (d : Decimal) : 0 ≤ d.magnitude := by
  rw [magnitude]
  positivity

theorem magnitude_eq_div (d : Decimal) :
    d.magnitude = (d.digits * tenPow d.exponent.toNat : ℕ) / (tenPow (-d.exponent).toNat : ℕ) := by
  rw [magnitude, zpow_eq_div, Nat.cast_mul, cast_tenPow, cast_tenPow, mul_div_assoc]

theorem denominator_pos (d : Decimal) : 0 < tenPow (-d.exponent).toNat :=
  tenPow_pos _

/-- With an exponent that is decided without computing the power, a decimal is too large to be bounded by a whole
number. -/
theorem lt_magnitude_of_exponent {d : Decimal} (hdigits : d.digits ≠ 0) (h : 310 < d.exponent) :
    (2 : ℚ) ^ 53 < d.magnitude := by
  have hone : (1 : ℚ) ≤ d.digits := by exact_mod_cast Nat.one_le_iff_ne_zero.2 hdigits
  calc (2 : ℚ) ^ 53 < 10 ^ (16 : ℤ) := by norm_num
    _ ≤ 10 ^ d.exponent := zpow_le_zpow_right₀ (by norm_num) (by omega)
    _ ≤ d.digits * 10 ^ d.exponent := le_mul_of_one_le_left (by positivity) hone

/-- The other exponents that are decided without computing the power leave less than half of the least machine
number. -/
theorem magnitude_lt_of_exponent {d : Decimal} (h : d.exponent < -330 - d.digits.log2) :
    d.magnitude ≤ 2 ^ (-1075 : ℤ) := by
  have hdigits : (d.digits : ℚ) ≤ 2 ^ (d.digits.log2 + 1) := by exact_mod_cast Nat.lt_log2_self.le
  generalize d.digits.log2 = size at h hdigits
  calc d.magnitude ≤ 2 ^ (size + 1) * 10 ^ (-330 - (size + 1 : ℕ) : ℤ) := by
        refine mul_le_mul hdigits (zpow_le_zpow_right₀ (by norm_num) (by push_cast; omega)) (by positivity)
          (by positivity)
    _ = (2 / 10) ^ (size + 1) * 10 ^ (-330 : ℤ) := by
        rw [zpow_sub₀ (by norm_num), zpow_natCast, div_pow]
        ring
    _ ≤ 1 * 10 ^ (-330 : ℤ) := by
        refine mul_le_mul_of_nonneg_right (pow_le_one₀ (by norm_num) (by norm_num)) (by positivity)
    _ ≤ 2 ^ (-1075 : ℤ) := by
        have hpowers : 2 ^ 1075 ≤ 10 ^ 330 := by decide +kernel
        rw [one_mul, zpow_neg, zpow_neg]
        exact inv_anti₀ (by positivity) (by exact_mod_cast hpowers)

/-- **A decimal is rounded to at most a bound** up to half a unit above it. -/
theorem atMost_nearest_iff {d : Decimal} {bound k : Nat} (hlower : 2 ^ k ≤ bound) (hupper : bound < 2 ^ (k + 1))
    (hk : k < 52) :
    (∃ x, d.nearest = some x ∧ x.atMost bound = true) ↔ d.magnitude ≤ bound + 2 ^ ((k : ℤ) - 53) := by
  have hzero : Binary64.zero.atMost bound = true := by
    rw [Binary64.atMost_iff, Binary64.value, Binary64.zero]
    simp
  have hslack : (0 : ℚ) < 2 ^ ((k : ℤ) - 53) := by positivity
  unfold nearest
  split
  · rename_i hdigits
    refine iff_of_true ⟨_, rfl, hzero⟩ ?_
    rw [magnitude, hdigits, Nat.cast_zero, zero_mul]
    positivity
  · rename_i hdigits
    split
    · rename_i hlarge
      have hbound : (bound : ℚ) + 1 ≤ 2 ^ 52 := by
        exact_mod_cast hupper.trans_le (Nat.pow_le_pow_right (by decide) hk)
      have hsmall : (2 : ℚ) ^ ((k : ℤ) - 53) < 1 := zpow_lt_one_of_neg₀ one_lt_two (by omega)
      have hmagnitude := lt_magnitude_of_exponent hdigits hlarge
      refine iff_of_false (fun ⟨x, hx, _⟩ => by cases hx) ?_
      rw [not_le]
      linarith
    · split
      · rename_i hsmall
        have hmagnitude := magnitude_lt_of_exponent hsmall
        have hone : (1 : ℚ) ≤ bound := by exact_mod_cast (Nat.one_le_two_pow).trans hlower
        have hlast : (2 : ℚ) ^ (-1075 : ℤ) ≤ 1 := zpow_le_one_of_nonpos₀ one_le_two (by decide)
        exact iff_of_true ⟨_, rfl, hzero⟩ (by linarith)
      · rw [Binary64.atMost_nearest_iff d.denominator_pos hlower hupper hk, ← magnitude_eq_div]

/-- **A decimal is rounded to zero** up to half of the least machine number. -/
theorem mantissa_nearest_iff {d : Decimal} {x : Binary64} (h : d.nearest = some x) :
    x.mantissa = 0 ↔ d.magnitude ≤ 2 ^ (-1075 : ℤ) := by
  unfold nearest at h
  split at h
  · rename_i hdigits
    cases h
    refine iff_of_true rfl ?_
    rw [magnitude, hdigits, Nat.cast_zero, zero_mul]
    positivity
  · split at h
    · cases h
    · split at h
      · rename_i hsmall
        cases h
        exact iff_of_true rfl (magnitude_lt_of_exponent hsmall)
      · rw [Binary64.mantissa_nearest_iff d.denominator_pos h, ← magnitude_eq_div]

end Decimal

end AtomicCss
