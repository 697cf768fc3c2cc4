import AtomicCss.Catalog.Entry
import AtomicCss.Color.Family
import AtomicCss.Color.Palette

/-!
# Color utilities

Every family that takes a color, with every color name.
-/

namespace AtomicCss.Catalog.Color

/-- The color names with what they come to. -/
def colors : List (String × String) :=
  Palette.allNames.filterMap fun name => (Palette.resolve? name).map fun value => (name, value)

def entries : List Entry :=
  ColorFamily.table.flatMap fun (family, properties) => scaleEntries family properties colors

end AtomicCss.Catalog.Color
