import AtomicCss.Dynamic.Value
import AtomicCss.Numeric.Decimal

/-!
# Opacity modifiers

Behind a slash a color takes an opacity: a number of percent, a percentage or a fraction of one in square
brackets, or a custom property in parentheses. A fraction is written as a percentage with at most two
decimals.

* `opacity?` — the percentage of a modifier;
* `splitOpacity?` — a value and the percentage behind its last slash;
* `colorMix` — a color with an opacity.
-/

namespace AtomicCss.Dynamic

/-- A number of hundredths in decimal, trailing zeros left out. -/
def hundredthsText (n : Nat) : String :=
  let whole := toString (n / 100)
  if n % 100 = 0 then whole
  else if n % 10 = 0 then whole ++ "." ++ toString (n / 10 % 10)
  else whole ++ "." ++ toString (n / 10 % 10) ++ toString (n % 10)

/-- A fraction of one as a percentage, rounded to hundredths of a percent; `none` outside the range from
zero to one. A negative zero keeps its sign. -/
def fractionPercent? (fraction : Decimal) : Option String := do
  let value ← fraction.nearest
  if (fraction.negative && value.mantissa != 0) || !value.atMost 1 then none
  else
    let scaled ← value.scale 10000
    some ((if fraction.negative then "-" else "") ++ hundredthsText scaled.round ++ "%")

/-- The percentage of an opacity in brackets: a plain numeral with a percent sign is taken as it stands,
any other decimal is a fraction of one. -/
def bracketedOpacity? (inner : String) : Option String :=
  match Text.before? "%" inner with
  | some number => if isPlainNumeral number then some inner else none
  | none => (Decimal.parse? inner).bind fractionPercent?

/-- A number of percent, which is at most a hundred. -/
def plainOpacity? (number : String) : Option String :=
  ((numeralValue number).filter (·.atMost 100)).map fun _ => number ++ "%"

/-- The percentage of an opacity modifier. -/
def opacity? (modifier : String) : Option String :=
  if isPlainNumeral modifier then plainOpacity? modifier
  else
    match Text.enclosed? "[" "]" modifier with
    | some inner => bracketedOpacity? inner
    | none => reference? modifier

/-- A value and the percentage behind its last slash outside brackets. -/
def splitOpacity? (value : String) : Option (String × String) := do
  let (color, modifier) ← Text.cutLastOutside? '/' value
  let percentage ← opacity? modifier
  some (color, percentage)

/-- A color with an opacity: mixed with transparency. -/
def colorMix (color percentage : String) : String :=
  "color-mix(in oklab, " ++ color ++ " " ++ percentage ++ ", transparent)"

/-- The condition under which a browser can mix colors. -/
def colorMixSupport : String :=
  "(color: color-mix(in lab, red, red))"

end AtomicCss.Dynamic
