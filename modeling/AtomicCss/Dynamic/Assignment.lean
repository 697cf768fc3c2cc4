import AtomicCss.Catalog.Spacing
import AtomicCss.Color.Family
import AtomicCss.Dynamic.Family
import AtomicCss.Numeric.Decimal
import AtomicCss.Text.Identifier

/-!
# What a family does with a value

A family that takes a color may take a width as well, so the value decides which property is set. A type
hint settles the question in front. A family that nothing is known about becomes a custom property of its
name.

* `sniff?` — what a family sets that looks at the value;
* `typed?` — what a family sets for a type hint;
* `negated?` — what a family sets with the value negated;
* `assign?` — all of these.
-/

namespace AtomicCss.Dynamic

open Catalog (Spacing.family?)

/-! ## Values that decide -/

/-- Whether a family that takes colors uses a value as one: it looks like a color, or it is a reference to
a custom property. -/
def isColorValue (value : String) : Bool :=
  isColorLike value || Text.startsWith "var(" value

/-- The property of a background value. -/
def backgroundProperty (value : String) : String :=
  if isColorValue value then "background-color"
  else if Text.startsWith "url(" value || Text.contains "gradient(" value then "background-image"
  else "background-position"

/-- The property of a font value: a number is a weight. -/
def fontProperty (value : String) : String :=
  if isPlainNumeral value then "font-weight" else "font-family"

/-- What a color family sets: its colors if the value is one, its widths if it has any. -/
def sniffColor (family : String) (properties : List String) (value : String) : List Declaration :=
  if isColorValue value then Declaration.each properties value
  else
    match widths.lookup family with
    | some template => template.fill value
    | none => Declaration.each properties value

/-- What a family sets that looks at the value to decide, `none` for every other family. -/
def sniff? (family value : String) : Option (List Declaration) :=
  if family = "bg" then some [.property (backgroundProperty value) value]
  else if family = "font" then some [.property (fontProperty value) value]
  else (ColorFamily.table.lookup family).map fun properties => sniffColor family properties value

/-! ## Hints, signs and unknown families -/

/-- What a family sets for a type hint in front of the value. -/
def typed? (family hint value : String) : Option (List Declaration) :=
  (typedTemplates.lookup (family, hint)).map (Template.fill · value)

def negation (value : String) : String :=
  "calc(" ++ value ++ " * -1)"

/-- What a family sets with the value negated: signed spacing families and a few others allow it. -/
def negated? (family value : String) : Option (List Declaration) :=
  match (Spacing.family? family).filter (·.signed) with
  | some spacing => some (Declaration.each spacing.properties (negation value))
  | none =>
    if negatable.contains family then
      (templates.lookup family).map (Template.fill · (negation value))
    else none

/-- The custom property of a family that nothing is known about. -/
def customProperty? (family value : String) : Option (List Declaration) :=
  if !Text.isIdentifier family then none
  else if Text.startsWith "--" family then some [.property family value]
  else some [.property ("--" ++ family) value]

/-- What a family without a sign in front sets. -/
def plain? (family value : String) : Option (List Declaration) :=
  (sniff? family value).or <|
    ((templates.lookup family).map (Template.fill · value)).or <|
      ((Spacing.family? family).map fun spacing => Declaration.each spacing.properties value).or <|
        customProperty? family value

/-- The family behind a minus sign. Two dashes are no sign but the start of a custom property. -/
def unsigned? (family : String) : Option String :=
  (Text.after? "-" family).filter (!Text.startsWith "-" ·)

/-- What a family sets for a value, with the type hint that stood in front of the value. -/
def assign? (family : String) (hint : Option String) (value : String) :
    Option (List Declaration) :=
  match hint with
  | some hint => typed? family hint value
  | none =>
    match unsigned? family with
    | some family => negated? family value
    | none => plain? family value

end AtomicCss.Dynamic
