import AtomicCss.Text.Blank
import AtomicCss.Text.Case
import AtomicCss.Text.Cut

/-!
# Utilities that take a color

A color utility is a family name, a dash and a color. The families and the properties that they set are
a table, searched in order: the borders of one side stand in front of `border`. An arbitrary value in
brackets counts as a color when it looks like one.

* `ColorFamily.split?` — the properties of the family that a name begins with, and what follows;
* `isColorLike` — whether an arbitrary value looks like a color.
-/

namespace AtomicCss

namespace ColorFamily

/-- The families that take a color and the properties that each sets. -/
def table : List (String × List String) :=
  [("decoration", ["text-decoration-color"]), ("border-x", ["border-inline-color"]),
   ("border-y", ["border-block-color"]), ("border-t", ["border-top-color"]),
   ("border-r", ["border-right-color"]), ("border-b", ["border-bottom-color"]),
   ("border-l", ["border-left-color"]), ("outline", ["outline-color"]),
   ("border", ["border-color"]), ("accent", ["accent-color"]), ("stroke", ["stroke"]),
   ("caret", ["caret-color"]), ("text", ["color"]), ("ring", ["--tw-ring-color"]),
   ("fill", ["fill"]), ("from", ["--tw-gradient-from"]), ("bg", ["background-color"]),
   ("to", ["--tw-gradient-to"])]

/-- The properties of the first family that `base` begins with, and what follows its dash. -/
def split? (base : String) : Option (List String × String) :=
  table.findSome? fun (family, properties) =>
    (Text.after? (family ++ "-") base).map fun rest => (properties, rest)

end ColorFamily

/-! ## Values that look like colors -/

/-- The beginnings of CSS color functions. -/
def colorFunctions : List String :=
  ["rgb(", "rgba(", "hsl(", "hsla(", "hwb(", "lab(", "lch(", "oklab(", "oklch(", "color(",
   "color-mix(", "light-dark("]

/-- The CSS color names that are recognised. -/
def colorWords : List String :=
  ["transparent", "currentcolor", "black", "white", "red", "green", "blue", "yellow", "orange",
   "purple", "pink", "gray", "grey", "silver", "navy", "teal", "maroon", "olive", "lime", "aqua",
   "fuchsia", "cyan", "magenta", "brown", "gold", "indigo", "violet", "crimson", "coral",
   "salmon", "tomato", "khaki", "beige", "ivory", "tan"]

/-- Whether a character is a hexadecimal digit. -/
def isHexDigit (c : Char) : Bool :=
  c.isDigit || ('a' ≤ c && c ≤ 'f') || ('A' ≤ c && c ≤ 'F')

/-- Whether a text is `#` and three, four, six or eight hexadecimal digits. -/
def isHexColor (s : String) : Bool :=
  match s.toList with
  | '#' :: digits => [3, 4, 6, 8].contains digits.length && digits.all isHexDigit
  | _ => false

/-- Whether a value looks like a color, its blank ends and the case of ASCII letters apart: a
hexadecimal color, a reference to a theme color, a color function, or a known color name. -/
def isColorLike (value : String) : Bool :=
  let lower := Text.asciiLower (Text.trim value)
  isHexColor lower || Text.startsWith "var(--color-" lower ||
    colorFunctions.any (fun f => Text.startsWith f lower) || colorWords.contains lower

end AtomicCss
