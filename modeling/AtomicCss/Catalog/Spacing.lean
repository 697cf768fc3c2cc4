import AtomicCss.Catalog.Entry

/-!
# Spacing utilities

Padding, margins, gaps, insets and sizes are multiples of the spacing unit of the theme. The families are
shared with the dynamic utilities, which accept steps that have no entry here.

* `families` — every family, with its properties and whether it accepts a minus sign in front;
* `steps`, `fractions` — the steps and fractions that have an entry.
-/

namespace AtomicCss.Catalog.Spacing

/-- A family of utilities whose values are multiples of the spacing unit. -/
structure Family where
  name : String
  properties : List String
  /-- Whether its values may be negated by a minus sign in front. -/
  signed : Bool
  deriving DecidableEq, Repr, Inhabited

def families : List Family :=
  [⟨"p", ["padding"], false⟩, ⟨"px", ["padding-inline"], false⟩, ⟨"py", ["padding-block"], false⟩,
   ⟨"ps", ["padding-inline-start"], false⟩, ⟨"pe", ["padding-inline-end"], false⟩,
   ⟨"pt", ["padding-top"], false⟩, ⟨"pr", ["padding-right"], false⟩,
   ⟨"pb", ["padding-bottom"], false⟩, ⟨"pl", ["padding-left"], false⟩, ⟨"m", ["margin"], true⟩,
   ⟨"mx", ["margin-inline"], true⟩, ⟨"my", ["margin-block"], true⟩,
   ⟨"ms", ["margin-inline-start"], true⟩, ⟨"me", ["margin-inline-end"], true⟩,
   ⟨"mt", ["margin-top"], true⟩, ⟨"mr", ["margin-right"], true⟩, ⟨"mb", ["margin-bottom"], true⟩,
   ⟨"ml", ["margin-left"], true⟩, ⟨"gap", ["gap"], false⟩, ⟨"gap-x", ["column-gap"], false⟩,
   ⟨"gap-y", ["row-gap"], false⟩, ⟨"inset", ["inset"], true⟩, ⟨"inset-x", ["inset-inline"], true⟩,
   ⟨"inset-y", ["inset-block"], true⟩, ⟨"start", ["inset-inline-start"], true⟩,
   ⟨"end", ["inset-inline-end"], true⟩, ⟨"top", ["top"], true⟩, ⟨"right", ["right"], true⟩,
   ⟨"bottom", ["bottom"], true⟩, ⟨"left", ["left"], true⟩, ⟨"w", ["width"], false⟩,
   ⟨"h", ["height"], false⟩, ⟨"min-w", ["min-width"], false⟩, ⟨"max-w", ["max-width"], false⟩,
   ⟨"min-h", ["min-height"], false⟩, ⟨"max-h", ["max-height"], false⟩,
   ⟨"size", ["width", "height"], false⟩, ⟨"basis", ["flex-basis"], false⟩,
   ⟨"leading", ["line-height"], false⟩, ⟨"indent", ["text-indent"], true⟩,
   ⟨"scroll-m", ["scroll-margin"], true⟩, ⟨"scroll-p", ["scroll-padding"], false⟩]

def family? (name : String) : Option Family :=
  families.find? fun f => f.name == name

theorem mem_families_of_family? {name : String} {family : Family} (h : family? name = some family) :
    family ∈ families ∧ family.name = name :=
  ⟨List.mem_of_find?_eq_some h, by simpa using List.find?_some h⟩

/-- The steps of the spacing scale that have an entry. -/
def steps : List String :=
  ["0", "0.5", "1", "1.5", "2", "2.5", "3", "3.5", "4", "5", "6", "7", "8", "9", "10", "11", "12",
   "14", "16", "20", "24", "28", "32", "36", "40", "44", "48", "52", "56", "60", "64", "72", "80",
   "96"]

/-- The fractions that have an entry, with their values. -/
def fractions : List (String × String) :=
  [("1/2", "50%"), ("1/3", "33.333333%"), ("2/3", "66.666667%"), ("1/4", "25%"), ("2/4", "50%"),
   ("3/4", "75%"), ("1/5", "20%"), ("2/5", "40%"), ("3/5", "60%"), ("4/5", "80%"),
   ("1/6", "16.666667%"), ("2/6", "33.333333%"), ("3/6", "50%"), ("4/6", "66.666667%"),
   ("5/6", "83.333333%"), ("1/12", "8.333333%"), ("5/12", "41.666667%"), ("7/12", "58.333333%"),
   ("11/12", "91.666667%")]

/-- The names of the inset families. -/
def insetNames : List String :=
  ["inset", "inset-x", "inset-y", "start", "end", "top", "right", "bottom", "left"]

/-- The names of the margin families. -/
def marginNames : List String :=
  ["m", "mx", "my", "ms", "me", "mt", "mr", "mb", "ml"]

/-- A value with a minus sign in front. -/
def negate (value : String) : String :=
  "-" ++ value

/-- The properties of a family by name. -/
def propertiesOf (name : String) : List String :=
  ((family? name).map Family.properties).getD []

/-- The entries of one step of a family: the step and, for a signed family and a step other than zero, its
negation. -/
def stepEntries (f : Family) (step : String) : List Entry :=
  entryOfEach (member f.name step) f.properties (spacingValue step) ::
    if f.signed && step != "0" then
      [entryOfEach (negate (member f.name step)) f.properties (spacingValue (negate step))]
    else []

/-- The entries of a family: its steps, and one pixel. -/
def familyEntries (f : Family) : List Entry :=
  steps.flatMap (stepEntries f) ++
  [entryOfEach (member f.name "px") f.properties "1px"] ++
  if f.signed then [entryOfEach (negate (member f.name "px")) f.properties "-1px"] else []

/-- The keywords and fractions of an inset family. -/
def insetEntries (name : String) : List Entry :=
  let properties := propertiesOf name
  [entryOfEach (member name "auto") properties "auto",
   entryOfEach (member name "full") properties "100%",
   entryOfEach (negate (member name "full")) properties "-100%"] ++
  fractions.flatMap fun (fraction, value) =>
    [entryOfEach (member name fraction) properties value,
     entryOfEach (negate (member name fraction)) properties (negate value)]

/-- The selector suffix for the space between children. -/
def betweenChildren : String :=
  " > :not(:last-child)"

/-- Space between children: margins behind all of them but the last. -/
def spaceEntries (step : String) : List Entry :=
  let value := if step = "px" then "1px" else spacingValue step
  [("x", "margin-inline-end"), ("y", "margin-block-end")].map fun (axis, property) =>
    ("space-" ++ axis ++ "-" ++ step,
      { declarations := [.property property value], suffix := some betweenChildren })

def entries : List Entry :=
  families.flatMap familyEntries ++
  marginNames.map (fun name => entryOfEach (member name "auto") (propertiesOf name) "auto") ++
  insetNames.flatMap insetEntries ++
  (steps ++ ["px"]).flatMap spaceEntries

end AtomicCss.Catalog.Spacing
