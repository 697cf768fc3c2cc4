import AtomicCss.Numeric.Binary64

/-!
# The shortest decimal that reads back

A binary64 number is written with the fewest digits that still round to it, and among those with the
digits nearest to its exact value. The reals that round to `m * 2 ^ e` form an interval around it, its
ends included when `m` is even. For one, two, … seventeen digits the two neighbours of the value on that
decimal grid are tested against the interval; the first grid with a hit wins.

* `shortest` — the digits and the power of ten of a positive magnitude.
-/

namespace AtomicCss.Binary64

/-- The order of `a * 10 ^ p` and `b * 2 ^ q`, decided on integers. -/
def compareScaled (a : Nat) (p : Int) (b : Nat) (q : Int) : Ordering :=
  compare (a * tenPow p.toNat * twoPow (-q).toNat) (b * twoPow q.toNat * tenPow (-p).toNat)

/-- Whether `digits * 10 ^ power` rounds to `x`. All bounds are counted in quarters of the last place of
the mantissa; below a power of two the lower half-gap is half as wide. -/
def roundsTo (x : Binary64) (digits : Nat) (power : Int) : Bool :=
  let lower := if x.mantissa = twoPow 52 ∧ x.exponent > -1074 then 4 * x.mantissa - 1
    else 4 * x.mantissa - 2
  let upper := 4 * x.mantissa + 2
  let below := compareScaled digits power lower (x.exponent - 2)
  let above := compareScaled digits power upper (x.exponent - 2)
  if x.mantissa % 2 = 0 then below != .lt && above != .gt else below == .gt && above == .lt

/-- The least `k` with `x < 10 ^ k`, looked for around an estimate from the binary logarithm. -/
def integerDigits (x : Binary64) : Int :=
  let estimate := Int.fdiv ((x.mantissa.log2 + x.exponent) * 1233) 4096
  let candidates := [estimate - 1, estimate, estimate + 1, estimate + 2]
  (candidates.find? fun k => compareScaled 1 k x.mantissa x.exponent == .gt).getD (estimate + 3)

/-- The neighbour of `x` on the grid of multiples of `10 ^ power` that rounds to `x`; of two, the nearer
one, and the even one if both are equally near. -/
def onGrid (x : Binary64) (power : Int) : Option Nat :=
  let below := x.numerator * tenPow (-power).toNat / (x.denominator * tenPow power.toNat)
  match roundsTo x below power, roundsTo x (below + 1) power with
  | true, true =>
    match compareScaled (2 * below + 1) power (2 * x.mantissa) x.exponent with
    | .gt => some below
    | .lt => some (below + 1)
    | .eq => some (if below % 2 = 0 then below else below + 1)
  | true, false => some below
  | false, true => some (below + 1)
  | false, false => none

/-- The upper neighbour of a value just below a power of ten ends in a zero, which is no digit of its
own: it goes into the power. -/
def trimZero (digits : Nat) (power : Int) : Nat × Int :=
  if digits % 10 = 0 then (digits / 10, power + 1) else (digits, power)

/-- The fewest digits that read back as a positive magnitude, with the power of ten that they are
multiplied by. Seventeen digits always suffice. -/
def shortest (x : Binary64) : Nat × Int :=
  let k := integerDigits x
  let grids := (List.range 17).map fun n => k - (n + 1 : Nat)
  (grids.findSome? fun power => (onGrid x power).map fun digits => trimZero digits power).getD
    (x.numerator / x.denominator, 0)

end AtomicCss.Binary64
