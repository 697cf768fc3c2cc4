import AtomicCss.Proofs.Numeric.Literals
import AtomicCss.Proofs.Numeric.Rounding

/-!
# Quarters survive rounding

The steps of the spacing scale are quarters, and whether a number is one is asked of the machine number that it is
rounded to. That is a different number, in general, and every machine number from `2 ^ 51` on is a quarter. For numerals
of a moderate size the question comes to the same, though:

* a quarter is a machine number itself, since the unit of the machine numbers in its power of two divides it;
* a decimal with few digits that is no quarter is too far from all of them to be rounded to one.

## The architecture

* **`Rounds.abs_sub_le`**, **`Rounds.eq_of_eq_mul`** — a number is moved by half a unit at most, and a multiple of the
  unit is not moved.
* **`Rounds.abs_sub_le_div`** — above the least unit this is a `2 ^ 53`rd of the number at most.
* **`Binary64.isQuarterStep_iff`** — when a machine number is a quarter.
* **`Decimal.isQuarterStep_nearest_iff`** — when a decimal is rounded to a quarter.
* **`IsNumeral`**, **`isQuarterStep_numeralValue_iff`** — the same for plain numerals of at most fifteen characters.
-/

namespace AtomicCss

/-! ## How far a number is moved -/

namespace Rounds

variable {number : ℚ} {power unit : ℤ} {multiple : Nat}

/-- **A number is moved by half a unit at most.** -/
theorem abs_sub_le (h : Rounds number power unit multiple) : |number - multiple * 2 ^ unit| ≤ 2 ^ (unit - 1) := by
  have hpositive : (0 : ℚ) < 2 ^ unit := by positivity
  have hupper : number ≤ (multiple + 1 / 2) * 2 ^ unit := by
    rcases (h.le_iff_middle multiple).1 le_rfl with hlt | ⟨heq, -⟩
    · exact hlt.le
    · exact heq.le
  have hlower : (multiple - 1 / 2) * 2 ^ unit ≤ number := by
    cases multiple with
    | zero =>
      have hnumber : 0 < number := lt_of_lt_of_le (by positivity) h.lower
      push_cast
      linarith
    | succ n =>
      -- the number is not below the middle in front of its multiple, since it would be rounded to the one before
      have hnot : ¬ n + 1 ≤ n := by omega
      rw [h.le_iff_middle, not_or, not_lt] at hnot
      push_cast
      linarith [hnot.1]
  rw [← half_unit, abs_le]
  constructor <;> linarith

/-- **A multiple of the unit is not moved.** -/
theorem eq_of_eq_mul (h : Rounds number power unit multiple) {n : Nat} (hn : number = n * 2 ^ unit) : multiple = n := by
  have hpositive : (0 : ℚ) < 2 ^ unit := by positivity
  have hle : multiple ≤ n := (h.le_iff_middle n).2 (.inl (by linarith))
  refine hle.antisymm (not_lt.1 fun hlt => ?_)
  obtain ⟨m, rfl⟩ : ∃ m, n = m + 1 := ⟨n - 1, by omega⟩
  rw [Nat.lt_succ_iff, h.le_iff_middle, hn] at hlt
  push_cast at hlt
  rcases hlt with hlt | ⟨heq, -⟩
  · linarith
  · linarith

/-- Above the least unit, a number is moved by a small part of itself. -/
theorem abs_sub_le_div (h : Rounds number power unit multiple) (hpower : -1022 ≤ power) :
    |number - multiple * 2 ^ unit| ≤ number / 2 ^ 53 := by
  have hunit : unit - 1 = power - (53 : ℕ) := by
    have := h.unit_eq
    omega
  calc |number - multiple * 2 ^ unit| ≤ 2 ^ (unit - 1) := h.abs_sub_le
    _ = 2 ^ power / 2 ^ 53 := by rw [hunit, zpow_sub₀ two_ne_zero, zpow_natCast]
    _ ≤ number / 2 ^ 53 := by
      have := h.lower
      gcongr

/-- **Quarters are not moved** as long as the unit divides them. -/
theorem value_eq_of_quarter (h : Rounds number power unit multiple) (hunit : unit ≤ -2) {n : Nat}
    (hn : number = n / 4) : multiple * 2 ^ unit = number := by
  obtain ⟨j, hj⟩ := Int.eq_ofNat_of_zero_le (show 0 ≤ -2 - unit by omega)
  have hfactor : (2 : ℚ) ^ j * 2 ^ unit = 1 / 4 := by
    rw [← zpow_natCast, ← zpow_add₀ two_ne_zero, show (j : ℤ) + unit = -2 by omega]
    norm_num
  have hmultiple : number = (n * 2 ^ j : ℕ) * 2 ^ unit := by
    rw [hn, Nat.cast_mul, Nat.cast_pow, Nat.cast_ofNat, mul_assoc, hfactor, mul_one_div]
  rw [h.eq_of_eq_mul hmultiple, ← hmultiple]

end Rounds

/-! ## Machine numbers -/

/-- A machine number is a step of a quarter if four times its value is a whole number that does not overflow. -/
theorem Binary64.isQuarterStep_iff {x : Binary64} :
    x.isQuarterStep = true ↔ (∃ n : Nat, x.value = n / 4) ∧ 4 * x.value < 2 ^ 1024 := by
  have hden := x.denominator_cast_pos
  have hwhole : 4 * x.numerator % x.denominator = 0 ↔ ∃ n : Nat, x.value = n / 4 := by
    rw [← Nat.dvd_iff_mod_eq_zero]
    refine exists_congr fun n => ?_
    rw [value_eq_div, div_eq_div_iff hden.ne' (by norm_num)]
    norm_cast
    rw [mul_comm x.numerator, mul_comm x.denominator]
  have hbound : 4 * x.numerator < twoPow 1024 * x.denominator ↔ 4 * x.value < 2 ^ 1024 := by
    rw [value_eq_div, ← mul_div_assoc, div_lt_iff₀ hden, ← cast_twoPow]
    norm_cast
  rw [isQuarterStep, Bool.and_eq_true, beq_iff_eq, decide_eq_true_eq, hwhole, hbound]

/-! ## Decimals -/

namespace Decimal

variable {d : Decimal}

/-- The numbers whose digits fit into a machine number, and that are not too small, are rounded without an exception. -/
theorem exists_rounds_nearest (hpositive : d.digits ≠ 0) (hdigits : d.digits < 2 ^ 51) (hlow : -300 ≤ d.exponent)
    (hhigh : d.exponent ≤ 0) :
    ∃ x power unit, ∃ multiple : Nat, d.nearest = some x ∧ x.value = multiple * 2 ^ unit ∧
      Rounds d.magnitude power unit multiple ∧ -1022 ≤ power ∧ unit ≤ -2 := by
  obtain ⟨power, unit, multiple, hrounds, hnearest⟩ :=
    rounds_nearest (Nat.mul_pos (Nat.pos_of_ne_zero hpositive) (tenPow_pos d.exponent.toNat)) d.denominator_pos
  rw [← magnitude_eq_div] at hrounds
  have hone : (1 : ℚ) ≤ d.digits := by exact_mod_cast Nat.one_le_iff_ne_zero.2 hpositive
  have hten : (10 : ℚ) ^ d.exponent ≤ 1 := zpow_le_one_of_nonpos₀ (by norm_num) hhigh
  have hbelow : (2 : ℚ) ^ power < 2 ^ (51 : ℤ) := by
    calc (2 : ℚ) ^ power ≤ d.digits * 10 ^ d.exponent := hrounds.lower
      _ ≤ d.digits * 1 := by gcongr
      _ < 2 ^ (51 : ℤ) := by
        rw [mul_one]
        exact_mod_cast hdigits
  have habove : (2 : ℚ) ^ (-1000 : ℤ) < 2 ^ (power + 1) := by
    have hpowers : (2 : ℚ) ^ (-1000 : ℤ) ≤ 10 ^ (-300 : ℤ) := by
      have hwhole : 10 ^ 300 ≤ 2 ^ 1000 := by decide +kernel
      rw [zpow_neg, zpow_neg]
      exact inv_anti₀ (by positivity) (by exact_mod_cast hwhole)
    calc (2 : ℚ) ^ (-1000 : ℤ) ≤ 10 ^ (-300 : ℤ) := hpowers
      _ ≤ 10 ^ d.exponent := zpow_le_zpow_right₀ (by norm_num) hlow
      _ ≤ d.digits * 10 ^ d.exponent := le_mul_of_one_le_left (by positivity) hone
      _ < 2 ^ (power + 1) := hrounds.upper
  have hpower : power < 51 := (zpow_lt_zpow_iff_right₀ one_lt_two).1 hbelow
  have hpower' : -1000 < power + 1 := (zpow_lt_zpow_iff_right₀ one_lt_two).1 habove
  have hunit := hrounds.unit_eq
  rcases hnearest with ⟨-, hlarge⟩ | ⟨x, hx, hvalue⟩
  · omega
  · refine ⟨x, power, unit, multiple, ?_, hvalue, hrounds, by omega, by omega⟩
    rw [nearest, if_neg hpositive, if_neg (by omega), if_neg (by omega), hx]

/-- A decimal with few digits is no nearer than that to any other quarter. -/
theorem eq_of_abs_sub_le {n : Nat} (hdigits : d.digits < 2 ^ 51) (hhigh : d.exponent ≤ 0)
    (h : |d.magnitude - n / 4| ≤ d.magnitude / 2 ^ 53) : d.magnitude = n / 4 := by
  obtain ⟨k, hk⟩ := Int.eq_ofNat_of_zero_le (show 0 ≤ -d.exponent by omega)
  have hten : (0 : ℚ) < 10 ^ k := by positivity
  have hmagnitude : d.magnitude = d.digits / 10 ^ k := by
    rw [magnitude, show d.exponent = -(k : ℤ) by omega, zpow_neg, zpow_natCast, div_eq_mul_inv]
  have hscaled : |(4 * d.digits - n * 10 ^ k : ℚ)| < 1 := by
    have hsmall : (4 * d.digits : ℚ) < 2 ^ 53 := by exact_mod_cast (by omega : 4 * d.digits < 2 ^ 53)
    calc |(4 * d.digits - n * 10 ^ k : ℚ)| = |d.magnitude - n / 4| * (4 * 10 ^ k) := by
          have hfactor : |(4 * 10 ^ k : ℚ)| = 4 * 10 ^ k := abs_of_pos (by positivity)
          rw [← hfactor, ← abs_mul, hmagnitude]
          congr 1
          field_simp
      _ ≤ d.magnitude / 2 ^ 53 * (4 * 10 ^ k) := by gcongr
      _ = 4 * d.digits / 2 ^ 53 := by
        rw [hmagnitude]
        field_simp
      _ < 1 := by
        rw [div_lt_one (by positivity)]
        exact hsmall
  -- both sides are whole numbers, so less than one apart they are the same
  have hwhole : (4 * d.digits : ℤ) = n * 10 ^ k := by
    have hlt : |(4 * d.digits - n * 10 ^ k : ℤ)| < 1 := by exact_mod_cast hscaled
    have := Int.abs_lt_one_iff.1 hlt
    omega
  rw [hmagnitude, div_eq_div_iff hten.ne' (by norm_num), mul_comm (d.digits : ℚ)]
  exact_mod_cast hwhole

/-- **A decimal is rounded to a quarter exactly if it is one**, if its digits fit into a machine number. -/
theorem isQuarterStep_nearest_iff (hdigits : d.digits < 2 ^ 51) (hlow : -300 ≤ d.exponent) (hhigh : d.exponent ≤ 0) :
    (d.nearest.map Binary64.isQuarterStep).getD false = true ↔ ∃ n : Nat, d.magnitude = n / 4 := by
  by_cases hzero : d.digits = 0
  · have hmagnitude : d.magnitude = 0 := by rw [magnitude, hzero, Nat.cast_zero, zero_mul]
    have hstep : Binary64.zero.isQuarterStep = true := by decide +kernel
    rw [nearest, if_pos hzero, Option.map_some, Option.getD_some]
    exact iff_of_true hstep ⟨0, by rw [hmagnitude]; simp⟩
  · obtain ⟨x, power, unit, multiple, hx, hvalue, hrounds, hpower, hunit⟩ :=
      exists_rounds_nearest hzero hdigits hlow hhigh
    rw [hx, Option.map_some, Option.getD_some, Binary64.isQuarterStep_iff]
    constructor
    · rintro ⟨⟨n, hn⟩, -⟩
      have hnear := hrounds.abs_sub_le_div hpower
      rw [← hvalue, hn] at hnear
      exact ⟨n, eq_of_abs_sub_le hdigits hhigh hnear⟩
    · rintro ⟨n, hn⟩
      have hsame : x.value = d.magnitude := hvalue.trans (hrounds.value_eq_of_quarter hunit hn)
      refine ⟨⟨n, hsame.trans hn⟩, ?_⟩
      have hsmall : (4 * d.digits : ℚ) < 2 ^ 1024 := by
        calc (4 * d.digits : ℚ) ≤ 4 * 2 ^ 51 := by
              have : (d.digits : ℚ) ≤ 2 ^ 51 := by exact_mod_cast hdigits.le
              linarith
          _ = 2 ^ 53 := by norm_num
          _ < 2 ^ 1024 := pow_lt_pow_right₀ one_lt_two (by decide)
      have hten : (10 : ℚ) ^ d.exponent ≤ 1 := zpow_le_one_of_nonpos₀ (by norm_num) hhigh
      rw [hsame, magnitude, ← mul_assoc]
      exact (mul_le_of_le_one_right (by positivity) hten).trans_lt hsmall

end Decimal

/-! ## Plain numerals -/

/-- A text of digits, with or without a dot between digits, and the number that it denotes. -/
inductive IsNumeral : String → ℚ → Prop where
  /-- Digits. -/
  | whole {digits : String} (hdigits : isDigits digits.toList = true) : IsNumeral digits (digitsValue digits.toList)
  /-- Digits on both sides of a dot. -/
  | dotted {whole fraction : String} (hwhole : isDigits whole.toList = true)
      (hfraction : isDigits fraction.toList = true) :
    IsNumeral (whole ++ "." ++ fraction)
      (digitsValue whole.toList + digitsValue fraction.toList / 10 ^ fraction.length)

theorem isPlainNumeral_iff_exists {s : String} : isPlainNumeral s = true ↔ ∃ q, IsNumeral s q := by
  rw [isPlainNumeral_iff]
  constructor
  · rintro (h | ⟨whole, fraction, hs, hwhole, hfraction⟩)
    · exact ⟨_, .whole h⟩
    · obtain rfl : s = String.ofList whole ++ "." ++ String.ofList fraction := String.toList_injective (by simp [hs])
      exact ⟨_, .dotted (by rwa [String.toList_ofList]) (by rwa [String.toList_ofList])⟩
  · rintro ⟨q, h⟩
    cases h with
    | whole hdigits => exact .inl hdigits
    | dotted hwhole hfraction => exact .inr ⟨_, _, by simp, hwhole, hfraction⟩

theorem digitsValue_lt {digits : List Char} (h : ∀ c ∈ digits, c.isDigit = true) :
    digitsValue digits < 10 ^ digits.length := by
  induction digits using List.reverseRecOn with
  | nil => decide
  | append_singleton digits c ih =>
    have hrest := ih fun c hc => h c (List.mem_append_left _ hc)
    have hdigit : c.toNat ≤ 57 := (Char.isDigit_iff_toNat.1 (h c (by simp))).2
    have hvalue : digitsValue [c] = c.toNat - 48 := by simp [digitsValue]
    rw [digitsValue_append, hvalue, List.length_append, List.length_singleton, pow_succ]
    omega

/-- A numeral is read as the number that it denotes. -/
theorem IsNumeral.exists_parse? {s : String} {q : ℚ} (h : IsNumeral s q) :
    ∃ d, Decimal.parse? s = some d ∧ d.magnitude = q ∧ d.digits < 10 ^ s.length ∧ -s.length ≤ d.exponent ∧
      d.exponent ≤ 0 := by
  cases h with
  | whole hdigits =>
    refine ⟨_, parse?_of_isDigits hdigits, ?_, ?_, Int.neg_nonpos_of_nonneg (Int.natCast_nonneg _), le_rfl⟩
    · rw [Decimal.magnitude, zpow_zero, mul_one]
    · rw [← String.length_toList]
      exact digitsValue_lt (List.all_eq_true.1 (Bool.and_eq_true_iff.1 hdigits).2)
  | @dotted whole fraction hwhole hfraction =>
    have hlength : (whole ++ "." ++ fraction).length = whole.toList.length + fraction.toList.length + 1 := by
      simp [← String.length_toList]
      omega
    refine ⟨_, parse?_of_dot (by simp) hwhole hfraction, ?_, ?_, ?_, ?_⟩
    · have hten : (10 : ℚ) ^ fraction.length ≠ 0 := by positivity
      rw [Decimal.magnitude, digitsValue_append, zpow_neg, zpow_natCast, String.length_toList]
      push_cast
      field_simp
    · have hall := digitsValue_lt (List.all_eq_true.1 (Bool.and_eq_true_iff.1 (isDigits_append hwhole hfraction)).2)
      refine hall.trans_le (Nat.pow_le_pow_right (by decide) ?_)
      rw [hlength, List.length_append]
      omega
    · show -((whole ++ "." ++ fraction).length : ℤ) ≤ -(fraction.toList.length : ℤ)
      omega
    · show -(fraction.toList.length : ℤ) ≤ 0
      omega

/-- **A numeral of at most fifteen characters is taken for a quarter exactly if it denotes one.** -/
theorem isQuarterStep_numeralValue_iff {s : String} (hlength : s.length ≤ 15) :
    (isPlainNumeral s && ((numeralValue s).map Binary64.isQuarterStep).getD false) = true ↔
      ∃ q, IsNumeral s q ∧ ∃ n : Nat, q = n / 4 := by
  have hquarter {q : ℚ} (h : IsNumeral s q) :
      ((numeralValue s).map Binary64.isQuarterStep).getD false = true ↔ ∃ n : Nat, q = n / 4 := by
    obtain ⟨d, hparse, rfl, hdigits, hlow, hhigh⟩ := h.exists_parse?
    have hfit : d.digits < 2 ^ 51 :=
      hdigits.trans_le ((Nat.pow_le_pow_right (by decide) hlength).trans (by decide))
    rw [numeralValue, hparse, Option.bind_some]
    exact Decimal.isQuarterStep_nearest_iff hfit (by omega) hhigh
  rw [Bool.and_eq_true, isPlainNumeral_iff_exists]
  constructor
  · rintro ⟨⟨q, h⟩, hstep⟩
    exact ⟨q, h, (hquarter h).1 hstep⟩
  · rintro ⟨q, h, hn⟩
    exact ⟨⟨q, h⟩, (hquarter h).2 hn⟩

end AtomicCss
