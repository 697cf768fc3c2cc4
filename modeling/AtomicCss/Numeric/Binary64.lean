import AtomicCss.Numeric.Power

/-!
# Binary floating point, exactly

Numbers in class names and theme files are rounded to IEEE 754 binary64 before they are compared or
written back. A finite magnitude is kept here as `mantissa * 2 ^ exponent` with natural numbers, so
nothing is ever rounded twice: `nearest` rounds an exact quotient once, to nearest with ties to even.

* `roundEven` — the integer nearest to a quotient;
* `Binary64.nearest` — the binary64 magnitude nearest to a quotient, `none` where it overflows;
* `Binary64.numerator`, `Binary64.denominator` — the exact value as a quotient.
-/

namespace AtomicCss

/-- The integer nearest to `num / den`; a value halfway between two integers goes to the even one. -/
def roundEven (num den : Nat) : Nat :=
  let quotient := num / den
  let rest := num % den
  if 2 * rest < den ∨ (2 * rest = den ∧ quotient % 2 = 0) then quotient else quotient + 1

/-- The exponent of the largest power of two that is at most `num / den`, for positive arguments. -/
def floorLog2 (num den : Nat) : Int :=
  let k : Int := (num.log2 : Int) - den.log2
  if den * twoPow k.toNat ≤ num * twoPow (-k).toNat then k else k - 1

/-- A finite binary64 magnitude: `mantissa < 2 ^ 53`, and the exponent is the least possible one that
is at least `-1074`. -/
structure Binary64 where
  mantissa : Nat
  /-- The power of two that they are multiplied by. -/
  exponent : Int
  deriving DecidableEq, Repr, Inhabited

namespace Binary64

def zero : Binary64 :=
  ⟨0, -1074⟩

/-- The magnitude nearest to `num / den`, ties to the even mantissa; `none` when it is so large that it
rounds to infinity. -/
def nearest (num den : Nat) : Option Binary64 :=
  if num = 0 then some zero
  else
    let exponent := max (floorLog2 num den - 52) (-1074)
    let mantissa := roundEven (num * twoPow (-exponent).toNat) (den * twoPow exponent.toNat)
    let rounded : Binary64 :=
      if mantissa = twoPow 53 then ⟨twoPow 52, exponent + 1⟩ else ⟨mantissa, exponent⟩
    if rounded.exponent > 971 then none else some rounded

/-- The numerator of the exact value. -/
def numerator (x : Binary64) : Nat :=
  x.mantissa * twoPow x.exponent.toNat

/-- The denominator of the exact value, a power of two. -/
def denominator (x : Binary64) : Nat :=
  twoPow (-x.exponent).toNat

/-- Whether the value is at most an integer. -/
def atMost (x : Binary64) (n : Nat) : Bool :=
  x.numerator ≤ n * x.denominator

/-- Whether four times the value is an integer that does not overflow. -/
def isQuarterStep (x : Binary64) : Bool :=
  4 * x.numerator % x.denominator == 0 && 4 * x.numerator < twoPow 1024 * x.denominator

/-- The integer nearest to the value, a half going up. -/
def round (x : Binary64) : Nat :=
  (2 * x.numerator + x.denominator) / (2 * x.denominator)

/-- The product with an integer, rounded to nearest. -/
def scale (x : Binary64) (n : Nat) : Option Binary64 :=
  nearest (x.numerator * n) x.denominator

end Binary64

theorem Binary64.denominator_pos (x : Binary64) : 0 < x.denominator :=
  twoPow_pos _

end AtomicCss
