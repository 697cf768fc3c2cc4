import AtomicCss.Theme.Basic

/-!
# The theme layer

A theme is written as custom properties of the root element, in a layer of its own. A theme without
entries has no layer at all.

* `Theme.properties` — every custom property with its value, in the order in which it is written;
* `Theme.layer` — the text of the layer.
-/

namespace AtomicCss.Theme

/-- The custom property of an entry of a plain category. -/
def variableName (category : Category) (key : String) : String :=
  "--" ++ category.stem ++ "-" ++ key

/-- The custom properties of a plain category. -/
def categoryProperties (theme : Theme) (category : Category) : List (String × String) :=
  (theme.scale category).entries.map fun (key, value) => (variableName category key, value)

/-- The custom properties of the type scale: size and line height of each entry. -/
def textProperties (theme : Theme) : List (String × String) :=
  theme.text.entries.flatMap fun (key, entry) =>
    [("--text-" ++ key, entry.size), ("--text-" ++ key ++ "--line-height", entry.lineHeight)]

/-- Every custom property of a theme, in the order in which it is written. -/
def properties (theme : Theme) : List (String × String) :=
  theme.categoryProperties .colors ++
    theme.spacing.toList.map (fun value => ("--spacing", value)) ++
    theme.categoryProperties .radius ++ theme.textProperties ++
    [.fonts, .fontWeights, .breakpoints, .shadows, .zIndex, .easings, .durations,
      .containers].flatMap theme.categoryProperties

/-- The layer that sets the custom properties of a theme; a theme without any has no layer. -/
def layer (theme : Theme) : String :=
  if theme.properties.isEmpty then ""
  else
    "@layer theme \x7b\n  :root \x7b\n" ++
      String.join (theme.properties.map fun (name, value) =>
        "    " ++ name ++ ": " ++ value ++ ";\n") ++
      "  \x7d\n\x7d\n"

end AtomicCss.Theme
