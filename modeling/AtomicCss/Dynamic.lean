import AtomicCss.Color.Palette
import AtomicCss.Dynamic.Assignment
import AtomicCss.Dynamic.Opacity
import AtomicCss.Dynamic.Step

/-!
# Dynamic utilities

A class name that the catalog does not list may still have a meaning, because it carries its value with
it. There are six forms of such names. Each has a cheap test of its shape and a reading, and the first
form whose reading succeeds decides; a malformed value is no utility at all.

* `Form` — the six forms;
* `Form.fits` — the test of shape;
* `Form.read?` — the reading;
* `Dynamic.resolve?` — the declarations of a dynamic utility.
-/

namespace AtomicCss.Dynamic

/-! ## Readings -/

/-- The two sides of the last closing square bracket that a slash and something more follow. -/
def cutModifier : List Char → Option (List Char × List Char)
  | [] => none
  | c :: cs =>
    match cutModifier cs with
    | some (left, right) => some (c :: left, right)
    | none =>
      match c, cs with
      | ']', '/' :: d :: rest => some ([], d :: rest)
      | _, _ => none

/-- Reads `[--name:value]/opacity`: the property is set to the value and, where colors can be mixed, to
the value with the opacity. The value ends at the last bracket that a modifier follows, and there is no
line break behind the name. -/
def propertyWithOpacity? (base : String) : Option (List Declaration) := do
  let (name, rest) ← (Text.after? "[--" base).bind (Text.cut? ":")
  let (raw, modifier) ← cutModifier rest.toList
  if !Text.isIdentifier name || raw.isEmpty || rest.toList.contains '\n' then none
  else
    let value ← arbitrary? (String.ofList raw)
    let percentage ← opacity? (String.ofList modifier)
    some [.property ("--" ++ name) value,
      .supports colorMixSupport [("--" ++ name, colorMix value percentage)]]

/-- The color in front of an opacity: an arbitrary color in brackets, a custom property in parentheses, or
a color of the palette. -/
def opaqueColor? (color : String) : Option String :=
  match Text.enclosed? "[" "]" color with
  | some inner => (arbitrary? inner).filter isColorValue
  | none =>
    if Text.startsWith "(" color then reference? color
    else Palette.resolve? color

/-- Reads `family-color/opacity`. -/
def colorWithOpacity? (base : String) : Option (List Declaration) := do
  let (properties, rest) ← ColorFamily.split? base
  let (color, percentage) ← splitOpacity? rest
  let color ← opaqueColor? color
  some (Declaration.each properties (colorMix color percentage))

/-- Reads the inside of `[name:value]`, which sets any property. -/
def property? (inner : String) : Option (List Declaration) := do
  let (name, raw) ← Text.cut? ":" inner
  if !Text.isIdentifier name || Text.startsWith "_" name then none
  else
    let value ← arbitrary? raw
    some [.property name value]

/-- A type hint in front of a value, if a family knows it, and the value. -/
def splitHint (raw : String) : Option String × String :=
  match Text.cut? ":" raw with
  | some (hint, value) => if isHint hint then (some hint, value) else (none, raw)
  | none => (none, raw)

/-- Reads `[name:value]` and `family-[value]`. -/
def bracketed? (base : String) : Option (List Declaration) :=
  match Text.enclosed? "[" "]" base with
  | some inner => property? inner
  | none => do
    let (family, rest) ← Text.cut? "-[" base
    let (hint, raw) := splitHint ((Text.before? "]" rest).getD rest)
    if family.isEmpty then none
    else
      let value ← arbitrary? raw
      assign? family hint value

/-- Reads `family-(--name)`. -/
def parenthesized? (base : String) : Option (List Declaration) := do
  let (family, rest) ← Text.cut? "-(" base
  if family.isEmpty then none
  else
    let value ← reference? ("(" ++ rest)
    assign? family none value

/-- Reads `family-(hint:--name)`. -/
def typedParenthesized? (base : String) : Option (List Declaration) := do
  let (family, rest) ← Text.cut? "-(" base
  let inner ← Text.before? ")" rest
  let (hint, name) ← Text.cut? ":" inner
  let value ← reference? ("(" ++ name ++ ")")
  typed? family hint value

/-! ## Forms -/

inductive Form where
  /-- `[--name:value]/opacity` -/
  | propertyWithOpacity
  /-- `family-color/opacity` -/
  | colorWithOpacity
  /-- `[name:value]` and `family-[value]` -/
  | bracketed
  /-- `family-(--name)` -/
  | parenthesized
  /-- `family-number` -/
  | numeric
  /-- `family-(hint:--name)` -/
  | typedParenthesized
  deriving DecidableEq, Repr, Inhabited

namespace Form

/-- The forms in the order in which they are tried. -/
def all : List Form :=
  [propertyWithOpacity, colorWithOpacity, bracketed, parenthesized, numeric, typedParenthesized]

/-- Whether a base utility has the shape of a form. -/
def fits : Form → String → Bool
  | propertyWithOpacity, base => Text.startsWith "[--" base && Text.contains "]/" base
  | colorWithOpacity, base => Text.contains "/" base && (ColorFamily.split? base).isSome
  | bracketed, base => Text.endsWith "]" base
  | parenthesized, base => Text.endsWith ")" base && Text.contains "-(--" base
  | numeric, base => (base.toList.getLast?.map Char.isDigit).getD false
  | typedParenthesized, base => Text.endsWith ")" base && Text.contains "-(" base

/-- Reads a base utility as a form. -/
def read? : Form → String → Option (List Declaration)
  | propertyWithOpacity => propertyWithOpacity?
  | colorWithOpacity => colorWithOpacity?
  | bracketed => bracketed?
  | parenthesized => parenthesized?
  | numeric => numeric?
  | typedParenthesized => typedParenthesized?

/-- The declarations of a base utility that has the shape of a form. -/
def resolve? (form : Form) (base : String) : Option (List Declaration) :=
  if form.fits base then form.read? base else none

theorem mem_all (form : Form) : form ∈ all := by
  cases form <;> decide

end Form

/-- The declarations of a base utility that carries its value with it. -/
def resolve? (base : String) : Option (List Declaration) :=
  if base.isEmpty then none else Form.all.findSome? (Form.resolve? · base)

end AtomicCss.Dynamic
