import AtomicCss.Numeric.Binary64

/-!
# Decimal numerals

Two kinds of numeral occur. A *plain numeral* is what a class name ends in: digits, with at most one dot
between digits. A *decimal literal* is the wider form that brackets and theme files may hold: a sign, a
dot at either end of the digits, and an exponent.

* `isPlainNumeral` — the test for plain numerals;
* `Decimal.parse?` — reads a decimal literal exactly;
* `Decimal.nearest` — the nearest binary64 magnitude of a decimal.
-/

namespace AtomicCss

/-- The number that a list of decimal digits denotes. -/
def digitsValue (digits : List Char) : Nat :=
  digits.foldl (fun n c => 10 * n + (c.toNat - '0'.toNat)) 0

/-- Whether a list is a non-empty run of decimal digits. -/
def isDigits (cs : List Char) : Bool :=
  !cs.isEmpty && cs.all Char.isDigit

/-- Whether a text is digits, or digits on both sides of one dot. -/
def isPlainNumeral (s : String) : Bool :=
  let whole := s.toList.takeWhile Char.isDigit
  match s.toList.dropWhile Char.isDigit with
  | [] => !whole.isEmpty
  | '.' :: fraction => !whole.isEmpty && isDigits fraction
  | _ => false

/-- A signed decimal, `digits * 10 ^ exponent` in magnitude; zero has a sign too. -/
structure Decimal where
  /-- Whether a minus sign stands in front. -/
  negative : Bool
  /-- All digits, the dot left out. -/
  digits : Nat
  /-- The power of ten that they are multiplied by. -/
  exponent : Int
  deriving DecidableEq, Repr, Inhabited

namespace Decimal

/-- A sign, if there is one, and what follows it. -/
def readSign : List Char → Bool × List Char
  | '-' :: cs => (true, cs)
  | '+' :: cs => (false, cs)
  | cs => (false, cs)

/-- The exponent behind the digits of a literal: nothing, or `e` and a signed run of digits. -/
def readExponent : List Char → Option Int
  | [] => some 0
  | c :: cs =>
    let (negative, digits) := readSign cs
    if (c = 'e' ∨ c = 'E') ∧ isDigits digits then
      some (if negative then -(digitsValue digits : Int) else digitsValue digits)
    else none

/-- Reads a decimal literal: a sign, digits with a dot anywhere among, before or behind them, and an
exponent. At least one digit is needed in front of the exponent. -/
def parse? (s : String) : Option Decimal :=
  let (negative, cs) := readSign s.toList
  let whole := cs.takeWhile Char.isDigit
  let (fraction, rest) :=
    match cs.dropWhile Char.isDigit with
    | '.' :: cs => (cs.takeWhile Char.isDigit, cs.dropWhile Char.isDigit)
    | cs => ([], cs)
  if whole.isEmpty && fraction.isEmpty then none
  else
    (readExponent rest).map fun exponent =>
      { negative, digits := digitsValue (whole ++ fraction)
        exponent := exponent - fraction.length }

/-- The binary64 magnitude nearest to a decimal, `none` where it overflows. Exponents far outside the
range of binary64 are decided without computing the power of ten: with at least one digit `10 ^ 310` is
too large, and below `10 ^ -330` all is zero. -/
def nearest (d : Decimal) : Option Binary64 :=
  if d.digits = 0 then some Binary64.zero
  else if d.exponent > 310 then none
  else if d.exponent < -330 - d.digits.log2 then some Binary64.zero
  else Binary64.nearest (d.digits * tenPow d.exponent.toNat) (tenPow (-d.exponent).toNat)

end Decimal

/-- The binary64 magnitude nearest to a plain numeral, `none` where it overflows. -/
def numeralValue (s : String) : Option Binary64 :=
  (Decimal.parse? s).bind Decimal.nearest

end AtomicCss
