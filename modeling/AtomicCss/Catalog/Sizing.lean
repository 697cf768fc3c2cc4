import AtomicCss.Catalog.Spacing
import AtomicCss.Theme.Scale

/-!
# Sizing utilities

Widths, heights and flex bases beside their spacing steps: keywords, fractions, viewport units and the
container sizes of the theme.
-/

namespace AtomicCss.Catalog.Sizing

/-- The families with their properties and the size of the screen. -/
def families : List (String × List String × String) :=
  [("w", ["width"], "100vw"), ("min-w", ["min-width"], "100vw"),
   ("max-w", ["max-width"], "100vw"), ("h", ["height"], "100vh"),
   ("min-h", ["min-height"], "100vh"), ("max-h", ["max-height"], "100vh"),
   ("size", ["width", "height"], "100vw"), ("basis", ["flex-basis"], "100vw")]

def keywords : List (String × String) :=
  [("auto", "auto"), ("full", "100%"), ("min", "min-content"), ("max", "max-content"),
   ("fit", "fit-content")]

def viewportWidths : List (String × String) :=
  [("svw", "100svw"), ("lvw", "100lvw"), ("dvw", "100dvw")]

/-- Units of the viewport height, and the line height. -/
def viewportHeights : List (String × String) :=
  [("svh", "100svh"), ("lvh", "100lvh"), ("dvh", "100dvh"), ("lh", "1lh")]

/-- The units of a family: those of the height if its name ends in `h`. -/
def unitsOf (family : String) : List (String × String) :=
  if family.toList.getLast? = some 'h' then viewportHeights else viewportWidths

def familyEntries (family : String) (properties : List String) (screen : String) : List Entry :=
  scaleEntries family properties keywords ++
  [entryOfEach (member family "screen") properties screen] ++
  scaleEntries family properties Spacing.fractions ++
  scaleEntries family properties (unitsOf family)

/-- The families that take the container sizes of the theme. -/
def containerFamilies : List (String × String) :=
  [("w", "width"), ("min-w", "min-width"), ("max-w", "max-width"), ("basis", "flex-basis")]

/-- The container sizes as references to the theme. -/
def containerSizes : List (String × String) :=
  Scale.containers.map fun (name, _) => (name, "var(--container-" ++ name ++ ")")

def entries : List Entry :=
  families.flatMap (fun (family, properties, screen) => familyEntries family properties screen) ++
  containerFamilies.flatMap (fun (family, property) =>
    scaleEntries family [property] containerSizes) ++
  [entryOfEach "max-w-none" ["max-width"] "none",
   entryOfEach "max-h-none" ["max-height"] "none",
   entryOfEach "max-w-prose" ["max-width"] "65ch",
   entryOfEach "min-h-0" ["min-height"] "0",
   entryOfEach "min-w-0" ["min-width"] "0"]

end AtomicCss.Catalog.Sizing
