import AtomicCss.Catalog.Spacing
import AtomicCss.Dynamic.Family
import AtomicCss.Numeric.Decimal
import AtomicCss.Text.Cut

/-!
# Utilities that end in a number

Behind its last dash a utility may have any number, not only those that the catalog lists. Some families
put it into a template with a unit; the spacing families multiply the spacing unit of the theme by it, in
steps of a quarter, or take a fraction of the whole.

* `NumericFamily`, `numericFamilies` — families with a unit;
* `Measure.text?` — a number with its unit;
* `spacingStep?` — a multiple of the spacing unit, or a fraction;
* `numeric?` — the declarations of a utility that ends in a number.
-/

namespace AtomicCss.Dynamic

open Catalog (spacingValue)

/-! ## Units -/

/-- What the number of a family counts. -/
inductive Measure where
  /-- A whole number without a unit. -/
  | integer
  | number
  | percent
  | milliseconds
  | degrees
  | pixels
  deriving DecidableEq, Repr, Inhabited

namespace Measure

/-- What is written behind the number. -/
def unit : Measure → String
  | integer => ""
  | number => ""
  | percent => "%"
  | milliseconds => "ms"
  | degrees => "deg"
  | pixels => "px"

/-- Whether the number has to be a whole one. -/
def isWhole : Measure → Bool
  | integer => true
  | number => false
  | percent => false
  | milliseconds => true
  | degrees => false
  | pixels => true

/-- A plain numeral with its unit; a whole number is written without a dot. -/
def text? (measure : Measure) (step : String) : Option String :=
  if isPlainNumeral step && !(measure.isWhole && Text.contains "." step) then
    some (step ++ measure.unit)
  else none

end Measure

/-- A family whose number has a unit. -/
structure NumericFamily where
  measure : Measure
  /-- Whether a minus sign may stand in front. -/
  signed : Bool
  template : Template
  deriving DecidableEq, Repr, Inhabited

/-! ## Tables -/

/-- Families with one measure and no sign. -/
def unsignedFamilies (measure : Measure) (table : List (String × Template)) :
    List (String × NumericFamily) :=
  table.map fun (family, template) => (family, ⟨measure, false, template⟩)

/-- What applies the scales of both axes. -/
def scaling : Slot :=
  .fixed "scale" Catalog.scaleValue

def integerFamilies : List (String × Template) :=
  [("z", [.whole "z-index"]), ("order", [.whole "order"]), ("columns", [.whole "columns"]),
   ("grid-cols", [.around "grid-template-columns" "repeat(" ", minmax(0, 1fr))"]),
   ("grid-rows", [.around "grid-template-rows" "repeat(" ", minmax(0, 1fr))"]),
   ("col-span", [⟨"grid-column", ["span ", " / span ", ""]⟩]),
   ("row-span", [⟨"grid-row", ["span ", " / span ", ""]⟩]),
   ("col-start", [.whole "grid-column-start"]), ("col-end", [.whole "grid-column-end"]),
   ("row-start", [.whole "grid-row-start"]), ("row-end", [.whole "grid-row-end"]),
   ("line-clamp", lineClampTemplate)]

def numberFamilies : List (String × Template) :=
  [("grow", [.whole "flex-grow"]), ("shrink", [.whole "flex-shrink"]),
   ("stroke", [.whole "stroke-width"])]

def percentFamilies : List (String × Template) :=
  [("opacity", [.whole "opacity"]),
   ("scale", [.whole "--tw-scale-x", .whole "--tw-scale-y", scaling]),
   ("scale-x", [.whole "--tw-scale-x", scaling]), ("scale-y", [.whole "--tw-scale-y", scaling]),
   ("brightness", [.around "filter" "brightness(" ")"]),
   ("contrast", [.around "filter" "contrast(" ")"]),
   ("saturate", [.around "filter" "saturate(" ")"])]

def millisecondFamilies : List (String × Template) :=
  [("duration", [.whole "transition-duration"]), ("delay", [.whole "transition-delay"])]

/-- Families of angles, which may be negative. -/
def degreeFamilies : List (String × NumericFamily) :=
  [("rotate", ⟨.degrees, true, [.whole "rotate"]⟩),
   ("skew-x", ⟨.degrees, true, [.around "transform" "skewX(" ")"]⟩),
   ("skew-y", ⟨.degrees, true, [.around "transform" "skewY(" ")"]⟩),
   ("hue-rotate", ⟨.degrees, true, [.around "filter" "hue-rotate(" ")"]⟩)]

def pixelFamilies : List (String × Template) :=
  [("border", [.whole "border-width"]), ("border-x", [.whole "border-inline-width"]),
   ("border-y", [.whole "border-block-width"]), ("border-t", [.whole "border-top-width"]),
   ("border-r", [.whole "border-right-width"]), ("border-b", [.whole "border-bottom-width"]),
   ("border-l", [.whole "border-left-width"]), ("outline", [.whole "outline-width"]),
   ("outline-offset", [.whole "outline-offset"]), ("ring", ringTemplate),
   ("decoration", [.whole "text-decoration-thickness"]),
   ("underline-offset", [.whole "text-underline-offset"])]

/-- Every family whose number has a unit. -/
def numericFamilies : List (String × NumericFamily) :=
  unsignedFamilies .integer integerFamilies ++ unsignedFamilies .number numberFamilies ++
    unsignedFamilies .percent percentFamilies ++
    unsignedFamilies .milliseconds millisecondFamilies ++ degreeFamilies ++
    unsignedFamilies .pixels pixelFamilies

/-- Families that accept a fraction of the whole. -/
def fractional : List String :=
  ["w", "h", "min-w", "max-w", "min-h", "max-h", "size", "basis", "inset", "inset-x", "inset-y",
   "start", "end", "top", "right", "bottom", "left", "translate-x", "translate-y"]

/-- The translations, with the custom property of their axis. -/
def translations : List (String × String) :=
  [("translate-x", "--tw-translate-x"), ("translate-y", "--tw-translate-y")]

/-! ## Multiples and fractions -/

/-- The value of a run of digits that is below `2 ^ 32`. A plus sign in front is ignored. -/
def count? (s : String) : Option Nat :=
  let digits := (Text.after? "+" s).getD s
  if isDigits digits.toList && digitsValue digits.toList < twoPow 32 then
    some (digitsValue digits.toList)
  else none

/-- The sign in front of a negative number. -/
def signText (negative : Bool) : String :=
  if negative then "-" else ""

def fraction? (family numerator denominator : String) (negative : Bool) : Option String := do
  let numerator ← count? numerator
  let denominator ← count? denominator
  if denominator = 0 || !fractional.contains family then none
  else
    some ("calc(" ++ toString numerator ++ "/" ++ toString denominator ++ " * " ++
      signText negative ++ "100%)")

/-- A multiple of the spacing unit, in steps of a quarter. -/
def multiple? (step : String) (negative : Bool) : Option String :=
  if isPlainNumeral step && ((numeralValue step).map Binary64.isQuarterStep).getD false then
    some (spacingValue (signText negative ++ step))
  else none

/-- The value of a step of a spacing family or a translation: a fraction if it has a slash, else a
multiple of the spacing unit. -/
def spacingStep? (family step : String) (negative : Bool) : Option String :=
  match Text.cut? "/" step with
  | some (numerator, denominator) => fraction? family numerator denominator negative
  | none => multiple? step negative

/-! ## Declarations -/

/-- What a family with a unit sets. -/
def measured? (family : NumericFamily) (step : String) (negative : Bool) :
    Option (List Declaration) :=
  if negative && !family.signed then none
  else (family.measure.text? step).map fun value => family.template.fill (signText negative ++ value)

/-- What a translation or a spacing family sets. -/
def spaced? (family step : String) (negative : Bool) : Option (List Declaration) := do
  let value ← spacingStep? family step negative
  match translations.lookup family with
  | some axis => some ((translateTemplate axis).fill value)
  | none =>
    let spacing ← Catalog.Spacing.family? family
    if negative && !spacing.signed then none
    else some (Declaration.each spacing.properties value)

/-- The declarations of a utility that ends in a number: a family, a dash and a step, with or without a
minus sign in front. -/
def numeric? (base : String) : Option (List Declaration) := do
  let negative := Text.startsWith "-" base
  let (family, step) ← Text.cutLast? '-' ((Text.after? "-" base).getD base)
  if family.isEmpty then none
  else
    match numericFamilies.lookup family with
    | some known => measured? known step negative
    | none => spaced? family step negative

end AtomicCss.Dynamic
