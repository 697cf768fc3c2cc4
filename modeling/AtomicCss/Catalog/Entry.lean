import AtomicCss.Css.Rule

/-!
# Catalog entries

The catalog lists every class name that has a fixed meaning. An entry is a class name and its utility;
most entries are made from tables in one of three ways.

* `entry` — a name with its properties and values;
* `entryOfEach` — a name that sets several properties to one value;
* `scaleEntries` — `family-name` for every name of a table, setting the same properties to its value.
-/

namespace AtomicCss.Catalog

/-- A class name with what it stands for. -/
abbrev Entry := String × Utility

/-- A class name with its properties and values. -/
def entry (name : String) (properties : List (String × String)) : Entry :=
  (name, { declarations := Declaration.ofPairs properties })

/-- A class name that sets several properties to one value. -/
def entryOfEach (name : String) (properties : List String) (value : String) : Entry :=
  (name, { declarations := Declaration.each properties value })

/-- The class name of a value in a family. -/
def member (family name : String) : String :=
  family ++ "-" ++ name

/-- A class name for every value of a table, each setting the same properties. -/
def scaleEntries (family : String) (properties : List String) (table : List (String × String)) :
    List Entry :=
  table.map fun (name, value) => entryOfEach (member family name) properties value

/-- A class name for every pair of a table, each setting one property. -/
def keywordEntries (property : String) (table : List (String × String)) : List Entry :=
  table.map fun (name, value) => entry name [(property, value)]

/-- The numbers from one to thirteen. -/
def thirteen : List String :=
  ["1", "2", "3", "4", "5", "6", "7", "8", "9", "10", "11", "12", "13"]

/-- The numbers from one to twelve. -/
def twelve : List String :=
  thirteen.take 12

/-- A multiple of the spacing unit. -/
def spacingValue (step : String) : String :=
  "calc(var(--spacing) * " ++ step ++ ")"

/-- What applies the translations along both axes, each of them zero unless it is set. -/
def translateValue : String :=
  "var(--tw-translate-x, 0) var(--tw-translate-y, 0)"

/-- What applies the scales of both axes, which have to be set. -/
def scaleValue : String :=
  "var(--tw-scale-x) var(--tw-scale-y)"

end AtomicCss.Catalog
